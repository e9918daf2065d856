import Mathlib
import RehashReport.Number.Decimal
import RehashReport.Proofs.Number.Magnitude
import RehashReport.Proofs.Text.Numeral

/-!
# Numbers to so many places

What it means for a text to be a number to so many places (`WrittenTo`), and that `Binary64.fixed`
yields such a text for every number, for the infinities and for what is no number
(`writtenTo_fixed`).
-/

namespace RehashReport

namespace Numeral

/-- The decimal numeral of a number, filled up with zeros to a number of digits that it does not
exceed, has so many digits and denotes the number. -/
theorem exists_unsigned_of_lt {places n : ℕ} (hplaces : 0 < places) (h : n < 10 ^ places) :
    (List.replicate (places - n.repr.length) '0' ++ n.repr.toList).length = places ∧
      Unsigned 10 (List.replicate (places - n.repr.length) '0' ++ n.repr.toList) n := by
  have hlength : n.repr.length ≤ places := Nat.repr_length n places hplaces h
  constructor
  · rw [List.length_append, List.length_replicate, String.length_toList]
    omega
  · rw [Nat.toList_repr]
    exact unsigned_toDigits (by decide) (by decide) _ n

theorem unsigned_repr (n : ℕ) : Unsigned 10 n.repr.toList n := by
  rw [Nat.toList_repr]
  exact unsigned_toDigits (by decide) (by decide) 0 n

end Numeral

namespace Binary64

open Numeral (Unsigned)

/-- `WrittenTo places x text`: the text is `x` to so many places.  A number has its sign, even if
nothing else is left of it, and then the nearest multiple of the last place, the even one of two,
with just so many digits after the point. -/
inductive WrittenTo (places : ℕ) : Binary64 → String → Prop
  | finite {negative : Bool} {code : Fin codeLimit} {units : ℕ} {fraction : List Char} :
      |(units : ℚ) - magnitude code * 10 ^ places| ≤ 1 / 2 →
      (|(units : ℚ) - magnitude code * 10 ^ places| = 1 / 2 → units % 2 = 0) →
      fraction.length = places → Unsigned 10 fraction (units % 10 ^ places) →
      WrittenTo places (.finite negative code)
        ((if negative then "-" else "") ++
          ((units / 10 ^ places).repr ++ "." ++ String.ofList fraction))
  | infinite {negative : Bool} :
      WrittenTo places (.infinite negative) (if negative then "-inf" else "inf")
  | nan : WrittenTo places .nan "NaN"

/-- A number with a fixed number of places is written to them. -/
theorem writtenTo_fixed {places : ℕ} (hplaces : 0 < places) (x : Binary64) :
    WrittenTo places x (x.fixed places) := by
  cases x with
  | infinite negative => exact .infinite
  | nan => exact .nan
  | finite negative code =>
    have hnonneg : 0 ≤ magnitude code * 10 ^ places :=
      mul_nonneg (magnitude_nonneg code) (by positivity)
    obtain ⟨units, hunits⟩ : ∃ units : ℕ,
        Rounding.nearestEven (magnitude code * 10 ^ places) = units := by
      have hmono := Rounding.nearestEven_mono hnonneg
      rw [← Int.cast_zero, Rounding.nearestEven_intCast] at hmono
      exact Int.eq_ofNat_of_zero_le hmono
    have hnear := Rounding.abs_nearestEven_sub_le (magnitude code * 10 ^ places)
    have hties := Rounding.even_nearestEven_of_tie (q := magnitude code * 10 ^ places)
    rw [hunits, Int.cast_natCast] at hnear hties
    have hlt : units % 10 ^ places < 10 ^ places := Nat.mod_lt _ (by positivity)
    obtain ⟨hlength, hdigits⟩ := Numeral.exists_unsigned_of_lt hplaces hlt
    have htext : (finite negative code).fixed places = (if negative then "-" else "") ++
        ((units / 10 ^ places).repr ++ "." ++ String.ofList (List.replicate
          (places - (units % 10 ^ places).repr.length) '0' ++
            (units % 10 ^ places).repr.toList)) := by
      rw [fixed, withSign]
      dsimp only
      rw [if_neg hplaces.ne', Nat.pow_eq]
      push_cast
      rw [hunits, Int.toNat_natCast, String.ofList_append, String.ofList_toList,
        String.append_assoc]
      rfl
    rw [htext]
    refine .finite hnear ?_ hlength hdigits
    intro htie
    have := hties htie
    omega

end Binary64

end RehashReport
