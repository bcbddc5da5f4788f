import Mathlib.Data.List.DropRight

/-!
# Splitting and trimming

Texts are lists over any alphabet; which symbols are blank is a parameter.  Splitting
at every separator is `List.splitOn`, of which `List.splitOn_intercalate` is the
inverse law.  The laws of this file are those of trimming, `strip_pad`, and of
splitting at the first separator only, `splitOnce_append`.
-/

namespace Text

variable {α : Type*} {blank : α → Bool} {text : List α}

/-! ## Trimming -/

/-- No symbol of the text is anything but blank. -/
def Blank (blank : α → Bool) (text : List α) : Prop := ∀ symbol ∈ text, blank symbol = true

/-- No blank at the beginning, and none at the end. -/
structure Trimmed (blank : α → Bool) (text : List α) : Prop where
  head : ∀ symbol ∈ text.head?, blank symbol = false
  last : ∀ symbol ∈ text.getLast?, blank symbol = false

instance (blank : α → Bool) (text : List α) : Decidable (Blank blank text) :=
  inferInstanceAs (Decidable (∀ symbol ∈ text, blank symbol = true))

instance (blank : α → Bool) (text : List α) : Decidable (Trimmed blank text) :=
  decidable_of_iff (_ ∧ _) ⟨fun h => ⟨h.1, h.2⟩, fun h => ⟨h.head, h.last⟩⟩

def strip (blank : α → Bool) (text : List α) : List α := (text.dropWhile blank).rdropWhile blank

theorem strip_of_blank (h : Blank blank text) : strip blank text = [] := by
  rw [strip, List.dropWhile_eq_nil_iff.mpr h, List.rdropWhile_nil]

theorem dropWhile_of_head (h : ∀ symbol ∈ text.head?, blank symbol = false) :
    text.dropWhile blank = text := by
  cases text with
  | nil => rfl
  | cons symbol text =>
      have hsymbol := h symbol rfl
      exact List.dropWhile_cons_of_neg (by simp [hsymbol])

theorem Trimmed.reverse (h : Trimmed blank text) : Trimmed blank text.reverse where
  head := by
    rw [List.head?_reverse]
    exact h.last
  last := by
    rw [List.getLast?_reverse]
    exact h.head

/-- Blanks around a trimmed text are removed, and nothing else. -/
theorem strip_pad {before after : List α} (hbefore : Blank blank before)
    (hafter : Blank blank after) (htext : Trimmed blank text) :
    strip blank (before ++ text ++ after) = text := by
  rw [strip, List.append_assoc, List.dropWhile_append_of_pos hbefore]
  cases text with
  | nil => rw [List.nil_append, List.dropWhile_eq_nil_iff.mpr hafter, List.rdropWhile_nil]
  | cons symbol text =>
      have hstart : (symbol :: text ++ after).dropWhile blank = symbol :: text ++ after :=
        dropWhile_of_head htext.head
      have hafter' : ∀ symbol ∈ after.reverse, blank symbol = true :=
        fun symbol hsymbol => hafter symbol (List.mem_reverse.mp hsymbol)
      rw [hstart, List.rdropWhile, List.reverse_append, List.dropWhile_append_of_pos hafter',
        dropWhile_of_head htext.reverse.head, List.reverse_reverse]

/-- A trimmed text that is followed by something trimmed and not empty. -/
theorem Trimmed.append {before after : List α} (hbefore : Trimmed blank before)
    (hafter : Trimmed blank after) (hne : before ≠ []) (hne' : after ≠ []) (middle : List α) :
    Trimmed blank (before ++ middle ++ after) where
  head := by
    rw [List.append_assoc, List.head?_append_of_ne_nil _ hne]
    exact hbefore.head
  last := by
    rw [List.getLast?_append_of_ne_nil _ hne']
    exact hafter.last

/-! ## Splitting once -/

variable [DecidableEq α]

/-- The text before the first separator and the text after it; `none` where there is none. -/
def splitOnce (separator : α) : List α → Option (List α × List α)
  | [] => none
  | symbol :: text =>
      if symbol = separator then some ([], text)
      else (splitOnce separator text).map fun parts => (symbol :: parts.1, parts.2)

theorem splitOnce_of_notMem {separator : α} (h : separator ∉ text) :
    splitOnce separator text = none := by
  induction text with
  | nil => rfl
  | cons symbol text ih =>
      rw [List.mem_cons, not_or] at h
      rw [splitOnce, if_neg (Ne.symm h.1), ih h.2, Option.map_none]

theorem splitOnce_append {separator : α} {before : List α} (h : separator ∉ before)
    (after : List α) :
    splitOnce separator (before ++ separator :: after) = some (before, after) := by
  induction before with
  | nil => simp [splitOnce]
  | cons symbol before ih =>
      rw [List.mem_cons, not_or] at h
      rw [List.cons_append, splitOnce, if_neg (Ne.symm h.1), ih h.2, Option.map_some]

end Text
