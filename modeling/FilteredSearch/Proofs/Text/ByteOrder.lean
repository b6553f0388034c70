import FilteredSearch.Keyed
import Mathlib.Data.String.Basic
import Mathlib.Tactic.SplitIfs

/-!
# The order of the bytes

Texts are in the order of their bytes.  The bytes of a smaller character are smaller already at the
first place where they differ from those of the greater one, and no character begins with all the
bytes of another.
-/

namespace FilteredSearch.Text

/-- The bytes of a text. -/
def bytes (text : String) : List UInt8 := text.toUTF8.data.toList

theorem bytes_eq_flatMap (text : String) :
  bytes text = text.toList.flatMap String.utf8EncodeChar
  := by
  have h : text.toByteArray = text.toList.utf8Encode := by
    rw [← String.toByteArray_ofList, String.ofList_toList]
  rw [bytes, String.toUTF8, h, List.utf8Encode, List.data_toByteArray]

open String in
/-- The bytes of a smaller character come first, whatever follows. -/
theorem utf8EncodeChar_append_lt {c d : Char} (h : c < d) (rest other : List UInt8) :
  utf8EncodeChar c ++ rest < utf8EncodeChar d ++ other
  := by
  have hlt : c.val.toNat < d.val.toNat := h
  have hmax : d.val.toNat < 0x110000 := by
    obtain hlow | hhigh := d.valid
    · apply Nat.lt_trans hlow
      decide
    · apply hhigh.2
  unfold utf8EncodeChar
  generalize c.val.toNat = v at hlt
  generalize d.val.toNat = w at hlt hmax
  simp only
  -- characters of different lengths differ in the first byte, those of one length in a digit
  split_ifs
  all_goals try omega
  all_goals
    simp only [List.cons_append, List.nil_append, List.cons_lt_cons_iff, UInt8.lt_iff_toNat_lt,
      ← UInt8.toNat_inj, UInt8.toNat_ofNat', Nat.reducePow]
    simp (disch := omega) only [Nat.mod_eq_of_lt]
    omega

theorem bytes_lt_of_lt {first second : String} (h : first < second) :
  bytes first < bytes second
  := by
  rw [bytes_eq_flatMap, bytes_eq_flatMap]
  replace h := String.lt_iff_toList_lt.mp h
  generalize first.toList = chars, second.toList = others at h
  induction h with
  | @nil c _ =>
    have hne : String.utf8EncodeChar c ≠ [] := String.utf8EncodeChar_ne_nil
    obtain ⟨byte, more, hbytes⟩ := List.exists_cons_of_ne_nil hne
    rw [List.flatMap_nil, List.flatMap_cons, hbytes]
    apply List.nil_lt_cons
  | rel hlt => apply utf8EncodeChar_append_lt hlt
  | cons _ ih =>
    rw [List.flatMap_cons, List.flatMap_cons]
    apply List.append_left_lt ih

/-- Texts are in the order of their bytes. -/
theorem lt_iff_bytes_lt {first second : String} :
  first < second ↔ bytes first < bytes second
  := by
  use bytes_lt_of_lt
  intro h
  by_contra hnot
  by_cases heq : first = second
  · subst heq
    apply List.lt_irrefl _ h
  · apply List.lt_asymm h
    apply bytes_lt_of_lt (Keyed.name_lt_of_not_lt hnot heq)

end FilteredSearch.Text
