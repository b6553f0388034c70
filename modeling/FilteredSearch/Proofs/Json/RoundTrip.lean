import FilteredSearch.Json.Reader
import FilteredSearch.Json.Writer
import FilteredSearch.Proofs.Json.Plain
import Mathlib.Data.List.TakeDrop
import Mathlib.Tactic.Common

/-!
# Reading back what was written

The text of a plain document is read as that document.  The writers put a text in front of a
rest, and the readers stop where the text of a document ends: at the end of the whole text, at a
comma, or at a closing bracket or brace.  So each kind of document has a lemma that reads its text
in front of a rest, within a number of steps that its length bounds, and the induction follows the
document.  The further items of an array and the further members of an object are read from within
the item or the member in front of them, since only that tells the reader to go on.
-/

namespace FilteredSearch

namespace Written

/-- What follows a document in a compact text: the end, a comma or a closing bracket or brace. -/
def Closes : List Char → Prop
  | [] => True
  | c :: _ => c = ',' ∨ c = ']' ∨ c = '\x7d'

variable {rest : List Char}

/-! ### Numbers -/

theorem digitsValue_digits (n : Nat) :
  digitsValue (Decimal.digits n) = n
  := Nat.ofDigitChars_ten_toDigits

theorem isDigit_of_mem_digits {n : Nat} {c : Char} (h : c ∈ Decimal.digits n) :
  c.isDigit = true
  := Nat.isDigit_of_mem_toDigits (by decide) (by decide) h

/-- The digits of a number that is not zero do not start with zero. -/
theorem head_digits_ne_zero {n : Nat} (h : 0 < n) :
  ∃ c cs, Decimal.digits n = c :: cs ∧ c ≠ '0'
  := by
  induction n using Nat.strongRecOn with
  | ind n ih =>
    rw [Decimal.digits, Nat.toDigits_eq_if (by decide)]
    split
    · refine ⟨_, _, rfl, ?_⟩
      rw [Ne, Nat.digitChar_eq_zero]
      omega
    · obtain ⟨c, cs, hdigits, hne⟩ := ih (n / 10) (by omega) (by omega)
      rw [← Decimal.digits, hdigits]
      exact ⟨c, _, rfl, hne⟩

theorem span_digits {digits : List Char} (hdigits : ∀ c ∈ digits, c.isDigit = true)
    (hrest : Closes rest) :
  (digits ++ rest).span Char.isDigit = (digits, rest)
  := by
  have hnone : rest.takeWhile Char.isDigit = [] ∧ rest.dropWhile Char.isDigit = rest := by
    match rest with
    | [] => exact ⟨rfl, rfl⟩
    | c :: cs =>
      rcases hrest with rfl | rfl | rfl <;> exact ⟨rfl, rfl⟩
  rw [List.span_eq_takeWhile_dropWhile, List.takeWhile_append_of_pos hdigits,
    List.dropWhile_append_of_pos hdigits, hnone.1, hnone.2, List.append_nil]

theorem readWhole?_digits (n : Nat) (hrest : Closes rest) :
  readWhole? (Decimal.digits n ++ rest) = some (Decimal.digits n, rest)
  := by
  rw [readWhole?, span_digits (fun _ => isDigit_of_mem_digits) hrest]
  rcases Nat.eq_zero_or_pos n with rfl | hpos
  · rfl
  · obtain ⟨c, cs, hdigits, hne⟩ := head_digits_ne_zero hpos
    rw [hdigits]
    split
    · next heq => simp at heq
    · next heq => simp_all
    · next heq => simp_all

theorem exists_digits_eq_cons (n : Nat) :
  ∃ c cs, Decimal.digits n = c :: cs ∧ c.isDigit = true
  := by
  cases hdigits : Decimal.digits n with
  | nil => exact absurd hdigits Nat.toDigits_ne_nil
  | cons c cs => exact ⟨c, cs, rfl, isDigit_of_mem_digits (hdigits ▸ List.mem_cons_self)⟩

theorem readMinus_digits (n : Nat) (rest : List Char) :
  readMinus (Decimal.digits n ++ rest) = (false, Decimal.digits n ++ rest)
  := by
  obtain ⟨c, cs, hdigits, hdigit⟩ := exists_digits_eq_cons n
  rw [hdigits, List.cons_append, readMinus]
  rintro rest' heq
  obtain ⟨rfl, -⟩ := List.cons_eq_cons.mp heq
  simp at hdigit

/-- The digits of an integer that fits stand for it. -/
theorem integerOfDigits_digits {value : Int} (fits : Number.Fits value) :
  integerOfDigits (decide (value < 0)) (Decimal.digits value.natAbs) = .ok (.integer value fits)
  := by
  have hvalue : (if decide (value < 0) = true then -(value.natAbs : Int) else value.natAbs)
      = value := by
    simp only [decide_eq_true_eq]
    split <;> omega
  have hsigned : ¬(decide (value < 0) && decide (value.natAbs = 0)) = true := by
    simp only [Bool.and_eq_true, decide_eq_true_eq]
    omega
  simp only [integerOfDigits, digitsValue_digits, hsigned, hvalue, Bool.false_eq_true, if_false,
    dif_pos fits]

/-- An integer is read as it was written. -/
theorem readNumber?_writeNumber (value : Int) (fits : Number.Fits value) (hrest : Closes rest) :
  readNumber? (Json.writeNumber (.integer value fits) ++ rest)
    = some (.ok (.integer value fits), rest)
  := by
  have hfraction : readFraction? rest = some (none, rest) := by
    rw [readFraction?]
    rintro text rfl
    simp [Closes] at hrest
  have hexponent : readExponent? rest = some (none, rest) := by
    rw [readExponent?]
    · rintro text rfl
      simp [Closes] at hrest
    · rintro text rfl
      simp [Closes] at hrest
  have hminus : readMinus (Json.writeNumber (.integer value fits) ++ rest)
      = (decide (value < 0), Decimal.digits value.natAbs ++ rest) := by
    rw [Json.writeNumber]
    split
    · next hneg => simp [readMinus, hneg]
    · next hneg => rw [readMinus_digits, decide_eq_false hneg]
  simp [readNumber?, hminus, readWhole?_digits _ hrest, hfraction, hexponent,
    integerOfDigits_digits fits]

/-! ### Strings -/

theorem hexValue?_hexDigit : ∀ n < 16, hexValue? (Json.hexDigit n) = some n := by decide

/-- A character is read as a piece of the string that stands for it. -/
theorem exists_readPieces?_writeChar (c : Char) :
  ∃ piece, (∀ text, readPieces? (Json.writeChar c ++ text) = consRead piece (readPieces? text))
    ∧ ∀ pieces cs, joinPieces pieces = .ok cs → joinPieces (piece :: pieces) = .ok (c :: cs)
  := by
  have hchar : ∀ pieces cs, joinPieces pieces = .ok cs →
      joinPieces (.char c :: pieces) = .ok (c :: cs) := by
    intro pieces cs h
    rw [joinPieces, h]
    rfl
  unfold Json.writeChar
  split_ifs with hquote hbackslash hb ht hn hf hr hcontrol
  case pos => subst hquote; exact ⟨.char _, fun text => rfl, hchar⟩
  case pos => subst hbackslash; exact ⟨.char _, fun text => rfl, hchar⟩
  case pos => subst hb; exact ⟨.char _, fun text => rfl, hchar⟩
  case pos => subst ht; exact ⟨.char _, fun text => rfl, hchar⟩
  case pos => subst hn; exact ⟨.char _, fun text => rfl, hchar⟩
  case pos => subst hf; exact ⟨.char _, fun text => rfl, hchar⟩
  case pos => subst hr; exact ⟨.char _, fun text => rfl, hchar⟩
  case pos =>
    refine ⟨.unit c.toNat, ?_, ?_⟩
    · intro text
      have hunit : hexUnit? '0' '0' (Json.hexDigit (c.toNat / 16)) (Json.hexDigit (c.toNat % 16))
          = some c.toNat := by
        have hzero : hexValue? '0' = some 0 := rfl
        rw [hexUnit?, hzero, hexValue?_hexDigit _ (by omega), hexValue?_hexDigit _ (by omega)]
        simp only [Option.bind_eq_bind, Option.bind_some, Option.some.injEq]
        omega
      simp only [List.cons_append, List.nil_append, readPieces?, hunit]
    · intro pieces cs h
      have htrailing : isTrailing c.toNat = false := by
        simp only [isTrailing, Bool.and_eq_false_imp, decide_eq_true_eq]
        omega
      have hleading : isLeading c.toNat = false := by
        simp only [isLeading, Bool.and_eq_false_imp, decide_eq_true_eq]
        omega
      rw [joinPieces.eq_def]
      simp only [htrailing, hleading, h, Bool.false_eq_true, if_false, Except.map, Char.ofNat_toNat]
  case neg =>
    refine ⟨.char c, ?_, hchar⟩
    intro text
    rw [List.singleton_append, readPieces?, if_neg hcontrol]
    · exact hquote
    · exact fun _ _ _ _ _ heq _ => hbackslash heq
    · exact fun _ _ heq _ => hbackslash heq

theorem exists_readPieces?_writeChars (cs rest : List Char) :
  ∃ pieces, readPieces? (Json.writeChars cs rest) = some (pieces, rest)
    ∧ joinPieces pieces = .ok cs
  := by
  induction cs with
  | nil => exact ⟨[], rfl, rfl⟩
  | cons c cs ih =>
    obtain ⟨pieces, hpieces, hjoin⟩ := ih
    obtain ⟨piece, hpiece, hcons⟩ := exists_readPieces?_writeChar c
    refine ⟨piece :: pieces, ?_, hcons pieces cs hjoin⟩
    rw [Json.writeChars, hpiece, hpieces]
    rfl

/-- A string is read as it was written. -/
theorem readString?_writeString (value : String) (rest : List Char) :
  readString? (Json.writeString value rest) = some (.ok value, rest)
  := by
  obtain ⟨pieces, hpieces, hjoin⟩ := exists_readPieces?_writeChars value.toList rest
  simp [Json.writeString, readString?, readTail?, hpieces, hjoin, Except.map]

/-! ### Documents -/

/-- A document starts with none of the characters that a reader skips or takes for an end. -/
def Starts (c : Char) : Prop := c ∉ [' ', '\t', '\n', '\r', ']', '\x7d']

/-- The text of the document is read as what was written. -/
structure IsReadBack (document : Json) (written : Written) : Prop where
  document_eq : written.document .unlimited = .ok document
  length_lt : ∀ rest, rest.length < (document.write rest).length
  starts : ∀ rest, ∃ c cs, document.write rest = c :: cs ∧ Starts c
  reads : ∀ steps rest, Closes rest → 2 * (document.write rest).length < steps →
    readValue? steps (document.write rest) = some (written, rest)

variable {document item value : Json} {written : Written} {items : List Json}
  {entries : List (String × Json)} {steps : Nat}

theorem skipBlanks_of_starts {c : Char} {cs : List Char} (h : Starts c) :
  skipBlanks (c :: cs) = c :: cs
  := by
  simp only [Starts, List.mem_cons, List.not_mem_nil, or_false, not_or] at h
  simp [skipBlanks, h]

theorem IsReadBack.skipBlanks_eq (h : IsReadBack document written) (rest : List Char) :
  skipBlanks (document.write rest) = document.write rest
  := by
  obtain ⟨c, cs, hwrite, hstarts⟩ := h.starts rest
  rw [hwrite, skipBlanks_of_starts hstarts]

/-- An integer starts with a digit or with the sign. -/
theorem exists_writeNumber_eq_cons (value : Int) (fits : Number.Fits value) :
  ∃ c cs, Json.writeNumber (.integer value fits) = c :: cs ∧ (c.isDigit = true ∨ c = '-')
  := by
  rw [Json.writeNumber]
  split
  · exact ⟨_, _, rfl, Or.inr rfl⟩
  · obtain ⟨c, cs, hdigits, hdigit⟩ := exists_digits_eq_cons value.natAbs
    exact ⟨c, cs, hdigits, Or.inl hdigit⟩

/-- What starts with a digit or a sign is read as a number. -/
theorem readValue?_of_number {c : Char} {cs : List Char} (hc : c.isDigit = true ∨ c = '-') :
  readValue? (steps + 1) (c :: cs)
    = (readNumber? (c :: cs)).map fun (value, rest) => (.number value, rest)
  := by
  have hne : ∀ other, other.isDigit = false → other ≠ '-' → c ≠ other := by
    rintro other hdigit hsign rfl
    rcases hc with hc | hc
    · simp [hc] at hdigit
    · exact hsign hc
  rw [readValue?]
  all_goals
    intro _ heq
    exact hne _ rfl (by decide) (List.cons_eq_cons.mp heq).1

theorem isReadBack_integer (value : Int) (fits : Number.Fits value) :
  IsReadBack (.number (.integer value fits)) (.number (.ok (.integer value fits)))
  := by
  obtain ⟨c, cs, hnumber, hc⟩ := exists_writeNumber_eq_cons value fits
  have hstarts : Starts c := by
    rcases hc with hdigit | rfl
    · simp only [Starts, List.mem_cons, List.not_mem_nil, or_false, not_or]
      refine ⟨?_, ?_, ?_, ?_, ?_, ?_⟩ <;>
        · rintro rfl
          simp at hdigit
    · simp [Starts]
  refine ⟨rfl, ?_, ?_, ?_⟩
  · intro rest
    rw [Json.write, hnumber, List.length_append, List.length_cons]
    omega
  · intro rest
    exact ⟨c, cs ++ rest, by rw [Json.write, hnumber, List.cons_append], hstarts⟩
  · rintro (_ | steps) rest hrest hlength
    · simp at hlength
    · have hread := readNumber?_writeNumber value fits hrest
      rw [hnumber, List.cons_append] at hread
      rw [Json.write, hnumber, List.cons_append, readValue?_of_number hc, hread]
      rfl

theorem length_writeChars (cs rest : List Char) :
  rest.length < (Json.writeChars cs rest).length
  := by
  induction cs with
  | nil => simp [Json.writeChars]
  | cons c cs ih =>
    rw [Json.writeChars, List.length_append]
    omega

theorem length_writeString (value : String) (rest : List Char) :
  rest.length < (Json.writeString value rest).length
  := by
  have hlength := length_writeChars value.toList rest
  rw [Json.writeString, List.length_cons]
  omega

theorem isReadBack_string (value : String) :
  IsReadBack (.string value) (.string (.ok value))
  where
  document_eq := rfl
  length_lt rest := by
    rw [Json.write]
    apply length_writeString
  starts rest := ⟨'"', _, by rw [Json.write]; rfl, by simp [Starts]⟩
  reads := by
    rintro (_ | steps) rest - hlength
    · simp at hlength
    · have hread := readString?_writeString value rest
      rw [Json.writeString, readString?] at hread
      rw [Json.write, Json.writeString, readValue?, hread]
      rfl

/-! ### Arrays -/

/-- A bracket with something else than its closing bracket after it opens a list of items. -/
theorem readValue?_of_items {c : Char} {cs : List Char} (h : Starts c) :
  readValue? (steps + 1) ('[' :: c :: cs)
    = (readItems? steps (c :: cs)).map fun (items, rest) => (.array items, rest)
  := by
  rw [readValue?, skipBlanks_of_starts h]
  split
  · next heq =>
    obtain ⟨rfl, -⟩ := List.cons_eq_cons.mp heq
    simp [Starts] at h
  · rfl

/-- After any item that is read back, the further items of an array are read as written. -/
structure AreReadBack (items : List Json) (writtens : List Written) : Prop where
  documents_eq : documents .unlimited writtens = .ok items
  length_lt : ∀ rest, rest.length < (Json.writeItems items rest).length
  reads : ∀ {item written}, IsReadBack item written → ∀ steps rest,
    2 * (item.write (Json.writeItems items rest)).length + 1 < steps →
    readItems? steps (item.write (Json.writeItems items rest)) = some (written :: writtens, rest)

theorem areReadBack_nil :
  AreReadBack [] []
  where
  documents_eq := rfl
  length_lt rest := by simp [Json.writeItems]
  reads := by
    rintro item written hitem (_ | steps) rest hlength
    · omega
    · rw [readItems?, hitem.skipBlanks_eq, hitem.reads steps _ _ (by omega)]
      · rfl
      · exact Or.inr (Or.inl rfl)

theorem AreReadBack.cons {writtens : List Written} (hitem : IsReadBack item written)
    (hitems : AreReadBack items writtens) :
  AreReadBack (item :: items) (written :: writtens)
  where
  documents_eq := by
    rw [documents, hitem.document_eq, hitems.documents_eq]
    rfl
  length_lt rest := by
    have hlength := hitem.length_lt (Json.writeItems items rest)
    have hlengths := hitems.length_lt rest
    rw [Json.writeItems, List.length_cons]
    omega
  reads := by
    rintro first firstWritten hfirst (_ | steps) rest hlength
    · omega
    · rw [Json.writeItems] at hlength ⊢
      have hlonger := hfirst.length_lt (',' :: item.write (Json.writeItems items rest))
      rw [List.length_cons] at hlonger
      have hread := hfirst.reads steps (',' :: item.write (Json.writeItems items rest))
        (Or.inl rfl) (by omega)
      rw [readItems?, hfirst.skipBlanks_eq, hread]
      change (readItems? steps (item.write (Json.writeItems items rest))).map _ = _
      rw [hitems.reads hitem steps rest (by omega)]
      rfl

theorem exists_areReadBack (h : ∀ item ∈ items, ∃ written, IsReadBack item written) :
  ∃ writtens, AreReadBack items writtens
  := by
  induction items with
  | nil => exact ⟨[], areReadBack_nil⟩
  | cons item items ih =>
    obtain ⟨written, hitem⟩ := h item List.mem_cons_self
    obtain ⟨writtens, hitems⟩ := ih fun other hmem => h other (List.mem_cons_of_mem _ hmem)
    exact ⟨written :: writtens, hitems.cons hitem⟩

theorem isReadBack_array_nil :
  IsReadBack (.array []) (.array [])
  where
  document_eq := rfl
  length_lt rest := by
    rw [Json.write, List.length_cons, List.length_cons]
    omega
  starts rest := ⟨'[', _, by rw [Json.write], by simp [Starts]⟩
  reads := by
    rintro (_ | steps) rest - hlength
    · omega
    · rw [Json.write]
      rfl

theorem IsReadBack.array {writtens : List Written} (hitem : IsReadBack item written)
    (hitems : AreReadBack items writtens) :
  IsReadBack (.array (item :: items)) (.array (written :: writtens))
  where
  document_eq := by
    have hdocuments := (hitems.cons hitem).documents_eq
    rw [Written.document]
    change (documents .unlimited (written :: writtens)).bind _ = _
    rw [hdocuments]
    rfl
  length_lt rest := by
    have hlength := hitem.length_lt (Json.writeItems items rest)
    have hlengths := hitems.length_lt rest
    rw [Json.write, List.length_cons]
    omega
  starts rest := ⟨'[', _, by rw [Json.write], by simp [Starts]⟩
  reads := by
    rintro (_ | steps) rest - hlength
    · omega
    · rw [Json.write] at hlength ⊢
      rw [List.length_cons] at hlength
      have hread := hitems.reads hitem steps rest (by omega)
      obtain ⟨c, cs, hwrite, hstarts⟩ := hitem.starts (Json.writeItems items rest)
      rw [hwrite] at hread ⊢
      rw [readValue?_of_items hstarts, hread]
      rfl

/-! ### Objects -/

/-- A brace with something else than its closing brace after it opens a list of members. -/
theorem readValue?_of_members {c : Char} {cs : List Char} (h : Starts c) :
  readValue? (steps + 1) ('\x7b' :: c :: cs)
    = (readMembers? steps (c :: cs)).map fun (fields, rest) => (.object fields, rest)
  := by
  rw [readValue?, skipBlanks_of_starts h]
  split
  · next heq =>
    obtain ⟨rfl, -⟩ := List.cons_eq_cons.mp heq
    simp [Starts] at h
  · rfl

/-- The text of a member with the further members after it. -/
def writeMember (name : String) (value : Json) (entries : List (String × Json))
    (rest : List Char) : List Char :=
  Json.writeString name (':' :: value.write (Json.writeMembers entries rest))

theorem skipBlanks_writeMember (name : String) (value : Json) (entries : List (String × Json))
    (rest : List Char) :
  skipBlanks (writeMember name value entries rest) = writeMember name value entries rest
  := by
  rw [writeMember, Json.writeString, skipBlanks_of_starts]
  simp [Starts]

theorem length_writeMember (name : String) (value : Json) (entries : List (String × Json))
    (rest : List Char) :
  (value.write (Json.writeMembers entries rest)).length + 1
    < (writeMember name value entries rest).length
  := length_writeString name (':' :: value.write (Json.writeMembers entries rest))

theorem closes_writeMembers (entries : List (String × Json)) (rest : List Char) :
  Closes (Json.writeMembers entries rest)
  := by
  cases entries with
  | nil => exact Or.inr (Or.inr rfl)
  | cons entry entries => exact Or.inl rfl

/-- Reads what follows the first member of an object. -/
def readFurther? (steps : Nat) (first : Except Flaw String × Written) :
    List Char → Option (List (Except Flaw String × Written) × List Char)
  | ',' :: rest => (readMembers? steps rest).map fun (fields, rest) => (first :: fields, rest)
  | '\x7d' :: rest => some ([first], rest)
  | _ => none

/-- The name and the value of a member are read before what follows it. -/
theorem readMembers?_writeMember (name : String) (hvalue : IsReadBack value written)
    {rest : List Char} (hsteps : 2 * (writeMember name value entries rest).length < steps) :
  readMembers? (steps + 1) (writeMember name value entries rest)
    = readFurther? steps (.ok name, written) (skipBlanks (Json.writeMembers entries rest))
  := by
  have hlonger := length_writeMember name value entries rest
  have hread := hvalue.reads steps _ (closes_writeMembers entries rest) (by omega)
  have hcolon : skipBlanks (':' :: value.write (Json.writeMembers entries rest))
      = ':' :: value.write (Json.writeMembers entries rest) :=
    skipBlanks_of_starts (by simp [Starts])
  simp only [readMembers?, skipBlanks_writeMember]
  simp only [writeMember, readString?_writeString, hcolon, hvalue.skipBlanks_eq, hread]
  rfl

/-- After any member that is read back, the further members of an object are read as written. -/
structure MembersReadBack (entries : List (String × Json))
    (fields : List (Except Flaw String × Written)) : Prop where
  members_eq : members .unlimited fields = .ok entries
  length_lt : ∀ rest, rest.length < (Json.writeMembers entries rest).length
  reads : ∀ {value written}, IsReadBack value written → ∀ name steps rest,
    2 * (writeMember name value entries rest).length + 1 < steps →
    readMembers? steps (writeMember name value entries rest)
      = some ((.ok name, written) :: fields, rest)

theorem membersReadBack_nil :
  MembersReadBack [] []
  where
  members_eq := rfl
  length_lt rest := by simp [Json.writeMembers]
  reads := by
    rintro value written hvalue name (_ | steps) rest hlength
    · omega
    · rw [readMembers?_writeMember name hvalue (by omega)]
      rfl

theorem MembersReadBack.cons {fields : List (Except Flaw String × Written)} (name : String)
    (hvalue : IsReadBack value written) (hmembers : MembersReadBack entries fields) :
  MembersReadBack ((name, value) :: entries) ((.ok name, written) :: fields)
  where
  members_eq := by
    rw [members, hvalue.document_eq, hmembers.members_eq]
    rfl
  length_lt rest := by
    have hlength := hvalue.length_lt (Json.writeMembers entries rest)
    have hlengths := hmembers.length_lt rest
    have hname := length_writeMember name value entries rest
    rw [writeMember] at hname
    rw [Json.writeMembers, List.length_cons]
    omega
  reads := by
    rintro first firstWritten hfirst firstName (_ | steps) rest hlength
    · omega
    · have hwrite : Json.writeMembers ((name, value) :: entries) rest
        = ',' :: writeMember name value entries rest := Json.writeMembers.eq_2 ..
      have hlonger := length_writeMember firstName first ((name, value) :: entries) rest
      have hlast := hfirst.length_lt (Json.writeMembers ((name, value) :: entries) rest)
      rw [readMembers?_writeMember firstName hfirst (by omega)]
      rw [hwrite, List.length_cons] at hlast
      rw [hwrite] at hlonger ⊢
      change (readMembers? steps (writeMember name value entries rest)).map _ = _
      rw [hmembers.reads hvalue name steps rest (by omega)]
      rfl

theorem exists_membersReadBack
    (h : ∀ entry ∈ entries, ∃ written, IsReadBack entry.2 written) :
  ∃ fields, MembersReadBack entries fields
  := by
  induction entries with
  | nil => exact ⟨[], membersReadBack_nil⟩
  | cons entry entries ih =>
    obtain ⟨written, hvalue⟩ := h entry List.mem_cons_self
    obtain ⟨fields, hfields⟩ := ih fun other hmem => h other (List.mem_cons_of_mem _ hmem)
    exact ⟨(.ok entry.1, written) :: fields, hfields.cons entry.1 hvalue⟩

theorem isReadBack_object_nil :
  IsReadBack (.object []) (.object [])
  where
  document_eq := rfl
  length_lt rest := by
    rw [Json.write, List.length_cons, List.length_cons]
    omega
  starts rest := ⟨'\x7b', _, by rw [Json.write], by simp [Starts]⟩
  reads := by
    rintro (_ | steps) rest - hlength
    · omega
    · rw [Json.write]
      rfl

/-- An object with ascending names is read back when its members are. -/
theorem IsReadBack.object {fields : List (Except Flaw String × Written)} {name : String}
    (hascending : Keyed.Ascending ((name, value) :: entries)) (hvalue : IsReadBack value written)
    (hmembers : MembersReadBack entries fields) :
  IsReadBack (.object ((name, value) :: entries)) (.object ((.ok name, written) :: fields))
  where
  document_eq := by
    have hall := (hmembers.cons name hvalue).members_eq
    rw [Written.document]
    change (members .unlimited ((.ok name, written) :: fields)).bind _ = _
    rw [hall]
    change Except.ok (Json.object _) = _
    rw [Keyed.ofList_eq_self hascending]
  length_lt rest := by
    have hlength := hvalue.length_lt (Json.writeMembers entries rest)
    have hlengths := hmembers.length_lt rest
    have hname := length_writeMember name value entries rest
    rw [writeMember] at hname
    rw [Json.write, List.length_cons]
    omega
  starts rest := ⟨'\x7b', _, by rw [Json.write], by simp [Starts]⟩
  reads := by
    rintro (_ | steps) rest - hlength
    · omega
    · have hwrite : (Json.object ((name, value) :: entries)).write rest
        = '\x7b' :: writeMember name value entries rest := by rw [Json.write, writeMember]
      rw [hwrite] at hlength ⊢
      rw [List.length_cons] at hlength
      have hread := hmembers.reads hvalue name steps rest (by omega)
      rw [writeMember, Json.writeString] at hread ⊢
      rw [readValue?_of_members (by simp [Starts]), hread]
      rfl

/-! ### Plain documents -/

theorem isReadBack_null :
  IsReadBack .null .null
  where
  document_eq := rfl
  length_lt rest := by
    simp only [Json.write, List.length_cons]
    omega
  starts rest := ⟨'n', _, by rw [Json.write], by simp [Starts]⟩
  reads := by
    rintro (_ | steps) rest - hlength
    · omega
    · rw [Json.write, readValue?]

theorem isReadBack_bool (value : Bool) :
  IsReadBack (.bool value) (.bool value)
  where
  document_eq := rfl
  length_lt rest := by
    cases value <;>
      · simp only [Json.write, List.length_cons]
        omega
  starts rest := by
    cases value
    · exact ⟨'f', _, by rw [Json.write], by simp [Starts]⟩
    · exact ⟨'t', _, by rw [Json.write], by simp [Starts]⟩
  reads := by
    rintro (_ | steps) rest - hlength
    · omega
    · cases value <;> rw [Json.write, readValue?]

/-- Every plain document is read back. -/
theorem exists_isReadBack (h : document.IsPlain) :
  ∃ written, IsReadBack document written
  := by
  induction h with
  | null => exact ⟨_, isReadBack_null⟩
  | bool value => exact ⟨_, isReadBack_bool value⟩
  | integer value fits => exact ⟨_, isReadBack_integer value fits⟩
  | string value => exact ⟨_, isReadBack_string value⟩
  | @array items _ ih =>
    cases items with
    | nil => exact ⟨_, isReadBack_array_nil⟩
    | cons item items =>
      obtain ⟨written, hitem⟩ := ih item List.mem_cons_self
      obtain ⟨writtens, hitems⟩ :=
        exists_areReadBack fun other hmem => ih other (List.mem_cons_of_mem _ hmem)
      exact ⟨_, hitem.array hitems⟩
  | @object entries hascending _ ih =>
    cases entries with
    | nil => exact ⟨_, isReadBack_object_nil⟩
    | cons entry entries =>
      obtain ⟨written, hvalue⟩ := ih entry List.mem_cons_self
      obtain ⟨fields, hfields⟩ :=
        exists_membersReadBack fun other hmem => ih other (List.mem_cons_of_mem _ hmem)
      exact ⟨_, hvalue.object hascending hfields⟩

end Written

/-- The text of a plain document holds that document. -/
theorem Json.ofText?_toText {document : Json} (h : document.IsPlain) :
  Json.ofText? document.toText = some document
  := by
  obtain ⟨written, hwritten⟩ := Written.exists_isReadBack h
  have hread := hwritten.reads (2 * (document.write []).length + 1) [] trivial (by omega)
  rw [Json.ofText?, Written.ofText?, Json.toText, String.toList_ofList, hwritten.skipBlanks_eq,
    hread]
  change (written.document .unlimited).toOption = _
  rw [hwritten.document_eq]
  rfl

end FilteredSearch
