import Psych.Publish.RoundHalfUp

/-!
# Published numbers

A cell value is published as blank, or as a mantissa with exponent -6. The publisher looks for NaN
only: infinities, and numbers whose mantissa has more than 64 bits, are converted as well.
-/

namespace Psych

/-- Nothing is published for the value, or a number within half a millionth of it. -/
inductive Faithful (value : Value) : FieldData → Prop
  | blank : Faithful value .blank
  | near {q : ℚ} {m : Int} (hvalue : value = .real q) (hlow : -2 ^ 63 ≤ m) (hhigh : m < 2 ^ 63)
      (hnear : |(m : ℚ) / 1000000 - q| ≤ 1 / 2 * (1 / 1000000)) : Faithful value (.real (some m))

/-- NaN, or a number whose product with a million has 64 bits and is rounded near. -/
def Value.Publishable : Value → Prop
  | .real q =>
    -2 ^ 63 - 1 / 2 ≤ q * 1000000 ∧ q * 1000000 < 2 ^ 63 - 1 / 2 ∧ RoundsNear (q * 1000000)
  | .posInf | .negInf => False
  | .nan => True

theorem near_millionth_iff (q : ℚ) (m : ℤ) :
    |(m : ℚ) / 1000000 - q| ≤ 1 / 2 * (1 / 1000000) ↔ |(m : ℚ) - q * 1000000| ≤ 1 / 2 := by
  have heq : (m : ℚ) / 1000000 - q = (m - q * 1000000) * (1 / 1000000) := by ring
  rw [heq, abs_mul, abs_of_pos (by norm_num : (0 : ℚ) < 1 / 1000000)]
  exact mul_le_mul_iff_left₀ (by norm_num)

theorem faithful_real_iff (q : ℚ) :
    Faithful (.real q) (.real (mantissa (.real q))) ↔ (Value.real q).Publishable := by
  have hmantissa : mantissa (.real q) =
      if -2 ^ 63 ≤ roundHalfUp (binary64.nearest (q * 1000000)) ∧
        roundHalfUp (binary64.nearest (q * 1000000)) < 2 ^ 63 then
        some (roundHalfUp (binary64.nearest (q * 1000000))) else none := rfl
  constructor
  · intro h
    rw [hmantissa] at h
    split at h
    · rename_i hrange
      cases h with
      | near hvalue hlow hhigh hnear =>
        cases hvalue
        rw [near_millionth_iff] at hnear
        obtain ⟨hlow, hhigh⟩ := (inRange_iff hnear).mp hrange
        exact ⟨hlow, hhigh, (near_iff _).mp hnear⟩
    · cases h
  · rintro ⟨hlow, hhigh, hrounds⟩
    have hnear := (near_iff _).mpr hrounds
    have hrange := (inRange_iff hnear).mpr ⟨hlow, hhigh⟩
    rw [hmantissa, if_pos hrange]
    exact .near rfl hrange.1 hrange.2 ((near_millionth_iff _ _).mpr hnear)

theorem Value.Publishable.faithful {value : Value} (h : value.Publishable) :
    Faithful value (fieldData value) := by
  cases value with
  | nan => exact .blank
  | posInf | negInf => exact h.elim
  | real q => exact (faithful_real_iff q).mpr h

/-- What is published for a value is faithful exactly where it is NaN, or a number within the range
of the mantissas that both roundings leave near. -/
theorem published_faithful_iff (value : Value) :
    Faithful value (fieldData value) ↔ value.Publishable := by
  refine ⟨fun h => ?_, Value.Publishable.faithful⟩
  cases value with
  | nan => trivial
  | posInf | negInf => cases h
  | real q => exact (faithful_real_iff q).mp h

-- the sum of an odd product with a half, and a product just below the range
example : mantissa (.real (2361183241434823 / 524288)) = some 4503599627370498 := by
  decide +kernel

example : mantissa (.real (4722366482869645 / 512)) = none := by decide +kernel

/-- Positive infinity is converted. -/
theorem infinity_not_faithful : ¬ Faithful .posInf (fieldData .posInf) := by
  intro h
  cases h

/-- Where every value of a table can be published, every column of every message is faithful to
one of them. -/
theorem handed_faithful {config : Config} {resource : Resource} {table : Table}
    {calls : Nat → RowCalls} {provider : Provider}
    (hvalues : ∀ row ∈ table.rows, ∀ value ∈ row.2, value.Publishable) {message : Message}
    (h : message ∈ (sendRefresh config resource table calls provider).2.handed) :
    ∃ row ∈ table.rows, ∃ topic, ∃ columns,
      message.fields = commonFields resource table topic ++ columns ∧
      ∀ entry ∈ columns, ∃ value ∈ row.2, Faithful value entry.2 := by
  obtain ⟨row, hrow, topic, hfields⟩ := handed_fields h
  refine ⟨row, hrow, topic, _, hfields, fun entry hentry => ?_⟩
  obtain ⟨column, _, hcolumn⟩ := List.mem_filterMap.mp hentry
  unfold columnEntry at hcolumn
  split at hcolumn
  · cases hcolumn
  · obtain ⟨value, hvalue, rfl⟩ := Option.map_eq_some_iff.mp hcolumn
    have hmem := List.mem_of_getElem? hvalue
    exact ⟨value, hmem, (hvalues row hrow value hmem).faithful⟩

end Psych
