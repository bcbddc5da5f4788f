import Mathlib.Data.Int.Notation
import Mathlib.Data.List.Basic

/-!
# Exceptions and strings of Python, and the values of `json.loads`

A function that raises is an `Except`; `bind_eq_ok` and `bind_eq_error` take a block
of such calls apart.

A string is a list of code points, and surrogates are code points: where the text
has half of an escaped pair, `json.loads` puts it into the string as it stands.  A
string has a UTF-8 form exactly if it is the string of a text (`encode_eq_some`);
its bytes are then those of the text, so `encode` gives the text.

The members of an object are kept in the order of the text.  A dictionary has the
last of those with the same key (`get`).
-/

namespace Python

/-! ## Exceptions -/

section

variable {ε α β : Type} {x : Except ε α} {f : α → Except ε β}

theorem bind_eq_ok {b : β} : (x >>= f) = .ok b ↔ ∃ a, x = .ok a ∧ f a = .ok b := by
  cases x <;> simp [bind, Except.bind]

theorem bind_eq_error {error : ε} :
    (x >>= f) = .error error ↔ x = .error error ∨ ∃ a, x = .ok a ∧ f a = .error error := by
  cases x <;> simp [bind, Except.bind]

end

/-! ## Strings -/

abbrev CodePoint := Fin 0x110000

/-- The code point of a character. -/
def CodePoint.ofChar (char : Char) : CodePoint :=
  ⟨char.toNat, by
    have hvalid := char.valid
    simp only [UInt32.isValidChar, Nat.isValidChar, Char.toNat] at hvalid ⊢
    omega⟩

/-- The character of a code point; a surrogate is none. -/
def CodePoint.toChar? (point : CodePoint) : Option Char :=
  if h : point.val.isValidChar then some (Char.ofNatAux point.val h) else none

theorem CodePoint.toChar?_ofChar (char : Char) : (ofChar char).toChar? = some char := by
  have hvalid : (ofChar char).val.isValidChar := char.valid
  rw [toChar?, dif_pos hvalid]
  rfl

theorem CodePoint.toChar?_eq_some {point : CodePoint} {char : Char} :
    point.toChar? = some char ↔ point = ofChar char := by
  constructor
  · intro h
    by_cases hvalid : point.val.isValidChar
    · rw [toChar?, dif_pos hvalid] at h
      rw [← Option.some.inj h]
      rfl
    · rw [toChar?, dif_neg hvalid] at h
      cases h
  · rintro rfl
    exact toChar?_ofChar char

/-- Half of a pair of UTF-16. -/
def CodePoint.Surrogate (point : CodePoint) : Prop := 0xD800 ≤ point.val ∧ point.val ≤ 0xDFFF

theorem CodePoint.toChar?_eq_none {point : CodePoint} :
    point.toChar? = none ↔ point.Surrogate := by
  have hbound := point.isLt
  by_cases hvalid : point.val.isValidChar
  · constructor
    · intro h
      rw [toChar?, dif_pos hvalid] at h
      cases h
    · intro hsurrogate
      unfold Nat.isValidChar at hvalid
      unfold Surrogate at hsurrogate
      omega
  · constructor
    · intro _
      unfold Nat.isValidChar at hvalid
      unfold Surrogate
      omega
    · intro _
      rw [toChar?, dif_neg hvalid]

abbrev Str := List CodePoint

namespace Str

def ofString (text : String) : Str := text.toList.map CodePoint.ofChar

def toChars? : Str → Option (List Char)
  | [] => some []
  | point :: s => do
      let char ← point.toChar?
      let chars ← toChars? s
      some (char :: chars)

/-- `encode("utf-8")`, as the text with these bytes; `none` where it raises
`UnicodeEncodeError`. -/
def encode (s : Str) : Option String := (toChars? s).map String.ofList

theorem toChars?_eq_some {s : Str} {chars : List Char} :
    toChars? s = some chars ↔ s = chars.map CodePoint.ofChar := by
  induction s generalizing chars with
  | nil => cases chars <;> simp [toChars?]
  | cons point s ih =>
      cases chars with
      | nil => simp [toChars?, Option.bind_eq_some_iff]
      | cons char chars =>
          simp [toChars?, Option.bind_eq_some_iff, CodePoint.toChar?_eq_some, ih]

theorem encode_eq_some {s : Str} {text : String} :
    s.encode = some text ↔ s = ofString text := by
  unfold encode ofString
  rw [Option.map_eq_some_iff]
  constructor
  · rintro ⟨chars, hchars, rfl⟩
    rw [String.toList_ofList]
    exact toChars?_eq_some.mp hchars
  · intro h
    exact ⟨text.toList, toChars?_eq_some.mpr h, String.ofList_toList⟩

/-- A string can be encoded unless it has a surrogate. -/
theorem encode_eq_none {s : Str} : s.encode = none ↔ ∃ point ∈ s, point.Surrogate := by
  unfold encode
  rw [Option.map_eq_none_iff]
  induction s with
  | nil => simp [toChars?]
  | cons point s ih =>
      rw [List.exists_mem_cons_iff, ← ih, ← CodePoint.toChar?_eq_none]
      cases hpoint : point.toChar? with
      | none => simp [toChars?, hpoint]
      | some char => cases hchars : toChars? s <;> simp [toChars?, hpoint, hchars]

@[simp] theorem encode_ofString (text : String) : (ofString text).encode = some text :=
  encode_eq_some.mpr rfl

theorem ofString_eq_nil {text : String} : ofString text = [] ↔ text = "" := by
  simp [ofString]

end Str

/-! ## JSON -/

/-- What `json.loads` gives. -/
inductive Json
  | null
  | bool (value : Bool)
  | int (value : ℤ)
  /-- A number with a fraction or an exponent. -/
  | float
  | string (text : Str)
  | array (elements : List Json)
  | object (members : List (Str × Json))

namespace Json

/-- `dict.get`. -/
def get (members : List (Str × Json)) (key : String) : Option Json :=
  members.reverse.lookup (Str.ofString key)

/-- The number of an instance of `int`; `bool` is a subclass of it. -/
def int? : Json → Option ℤ
  | int value => some value
  | bool value => some (if value then 1 else 0)
  | _ => none

end Json
end Python
