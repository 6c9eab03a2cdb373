import Psych.Model.Calendar
import Psych.Model.Config

/-!
# A small configuration

One resource with two columns and one sector: the data of the witnesses.
-/

namespace Psych

def sampleResource : Resource where
  name := "equities".toList
  source := "MPNEWS".toList
  path := "/equities".toList
  entitlementCode := 5000
  fields := [("Buzz".toList, 6), ("Sentiment".toList, 7)]
  items := [("1679".toList, "MPTRXUS01".toList, "Mining".toList)]

def sampleSession : SessionConfig where
  sessionName := "SESSIONA".toList
  connectionName := "CONNECTIONA".toList
  publisherName := "PUBLISHERA".toList
  rsslServers := ["adh".toList]
  applicationId := "256".toList
  instanceId := "Instance1".toList
  userName := "user1".toList

def sampleConfig : Config where
  serviceName := "NI_VTA".toList
  sessions := [sampleSession]
  monitorName := "ApplicationLoggerMonitorName".toList
  eventQueueName := "EventQueueName".toList
  vendorName := "Vendor".toList
  maximumDataSize := "8192".toList
  interval := "60".toList
  maximumResponseSize := "65536".toList
  minimumResponseSize := "64".toList
  timeOffsetConstant := "00:00:00".toList
  resources := [sampleResource]

/-- The timestamp line, a header and one row. -/
def sampleBody : Text :=
  ("# MarketPsych Engine Version 1.3 | 2012-05-02 21:19:00 UTC - 2012-05-03 21:19:00 UTC\n" ++
    "Sector\tBuzz\tSentiment\n1679\t5\t-2\n").toList

/-- The timestamp line, character by character: to evaluate the characters of a long literal takes
long. -/
def sampleTimestamp : Text :=
  ['#', ' ', 'M', 'a', 'r', 'k', 'e', 't', 'P', 's', 'y', 'c', 'h', ' ', 'E', 'n', 'g', 'i', 'n',
    'e', ' ', 'V', 'e', 'r', 's', 'i', 'o', 'n', ' ', '1', '.', '3', ' ', '|', ' ', '2', '0', '1',
    '2', '-', '0', '5', '-', '0', '2', ' ', '2', '1', ':', '1', '9', ':', '0', '0', ' ', 'U', 'T',
    'C', ' ', '-', ' ', '2', '0', '1', '2', '-', '0', '5', '-', '0', '3', ' ', '2', '1', ':', '1',
    '9', ':', '0', '0', ' ', 'U', 'T', 'C', '\n']

theorem sampleTimestamp_eq :
    "# MarketPsych Engine Version 1.3 | 2012-05-02 21:19:00 UTC - 2012-05-03 21:19:00 UTC\n".toList =
      sampleTimestamp :=
  String.toList_ofList

theorem sampleBody_eq :
    sampleBody = sampleTimestamp ++ "Sector\tBuzz\tSentiment\n1679\t5\t-2\n".toList := by
  rw [← sampleTimestamp_eq, ← String.toList_append]
  rfl

example : sampleConfig.validate = true := by decide

end Psych
