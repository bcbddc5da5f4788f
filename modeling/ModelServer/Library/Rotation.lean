import Mathlib.Data.List.Chain
import Mathlib.Data.List.Count
import ModelServer.Library.Ranks

/-!
# A rotating cursor

A cursor is reduced modulo the size of a list, the element there is served, and
the cursor moves on by one.  In a sorted list it then stands at the place of the
element that comes next, the first one again after the last: `add_one_mod_length`.

The lists may differ from turn to turn.  `distance` measures in an enumeration of
all elements how far a target is from the element at the cursor, going round.
Where the cursor of the next list is at the place of the element that comes next
there, the target is nearer than before (`distance_next_lt`); so it is served
before its first distance has run out (`zero_mem`).
-/

namespace Rotation

/-! ## Going round -/

/-- The distance from the cursor to `position`, going round. -/
def waiting (size cursor position : ℕ) : ℕ := (position + (size - cursor % size)) % size

theorem waiting_lt {size : ℕ} (h : 0 < size) (cursor position : ℕ) :
    waiting size cursor position < size :=
  Nat.mod_lt _ h

theorem waiting_eq {size cursor position : ℕ} (h : position < size) :
    waiting size cursor position =
      if cursor % size ≤ position then position - cursor % size
      else position + size - cursor % size := by
  have hcursor : cursor % size < size := Nat.mod_lt _ (by omega)
  unfold waiting
  split
  · have hround : position + (size - cursor % size) = position - cursor % size + size := by omega
    rw [hround, Nat.add_mod_right, Nat.mod_eq_of_lt (by omega)]
  · rw [Nat.mod_eq_of_lt (by omega)]
    omega

variable {α : Type*} [LinearOrder α] {list all : List α} {first next target : α}

/-! ## The place of the next element -/

/-- The place in `list` of the element that comes next after `last`. -/
def nextPlace (list : List α) (last : α) : ℕ := list.countP (· ≤ last) % list.length

/-- As many elements come up to the one at a place as there are places up to it. -/
theorem countP_le_getElem (h : list.SortedLT) {i : ℕ} (hi : i < list.length) :
    list.countP (· ≤ list[i]) = i + 1 := by
  have hlower := Ranks.lt_countP_le_getElem h.sortedLE hi
  have hlength : list.countP (· ≤ list[i]) ≤ list.length := List.countP_le_length
  by_contra hne
  have hsucc : i + 1 < list.length := by omega
  have hle : list[i + 1] ≤ list[i] :=
    (Ranks.getElem_le_iff_lt_countP h.sortedLE hsucc).mpr (by omega)
  exact absurd hle (not_le.mpr (h.getElem_lt_getElem_of_lt (by omega)))

/-- The cursor moves on to the place of the next element. -/
theorem add_one_mod_length (h : list.SortedLT) {cursor : ℕ}
    (hserved : list[cursor % list.length]? = some first) :
    (cursor + 1) % list.length = nextPlace list first := by
  obtain ⟨hcursor, rfl⟩ := List.getElem?_eq_some_iff.mp hserved
  rw [nextPlace, countP_le_getElem h hcursor, Nat.mod_add_mod]

/-- At that place is the least element after `last`, or the least of all if there is none
after it. -/
theorem nextPlace_spec (h : list.SortedLE) (hnext : list[nextPlace list first]? = some next) :
    (first < next ∧ ∀ x ∈ list, first < x → next ≤ x) ∨ ∀ x ∈ list, x ≤ first ∧ next ≤ x := by
  obtain ⟨hplace, rfl⟩ := List.getElem?_eq_some_iff.mp hnext
  have hlength : list.countP (· ≤ first) ≤ list.length := List.countP_le_length
  rcases hlength.lt_or_eq with hinside | hround
  · left
    have hcount : nextPlace list first = list.countP (· ≤ first) := Nat.mod_eq_of_lt hinside
    constructor
    · rw [← not_le, Ranks.getElem_le_iff_lt_countP h hplace]
      omega
    · intro x hx hlater
      obtain ⟨i, hi, rfl⟩ := List.mem_iff_getElem.mp hx
      rw [← not_le, Ranks.getElem_le_iff_lt_countP h hi] at hlater
      exact h.getElem_le_getElem_of_le (by omega)
  · right
    intro x hx
    have hzero : nextPlace list first = 0 := by rw [nextPlace, hround, Nat.mod_self]
    obtain ⟨i, hi, rfl⟩ := List.mem_iff_getElem.mp hx
    exact ⟨(Ranks.getElem_le_iff_lt_countP h hi).mpr (by omega),
      h.getElem_le_getElem_of_le (by omega)⟩

/-! ## Distances among all elements -/

/-- How many elements of `all` there are from `first` on before `target`, going round. -/
def distance (all : List α) (first target : α) : ℕ :=
  waiting all.length (all.countP (· < first)) (all.countP (· < target))

theorem countP_lt_lt_countP_lt (hfirst : first ∈ all) (h : first < target) :
    all.countP (· < first) < all.countP (· < target) := by
  have hmono (list : List α) : list.countP (· < first) ≤ list.countP (· < target) := by
    refine List.countP_mono_left fun x _ hx => ?_
    rw [decide_eq_true_eq] at hx ⊢
    exact hx.trans h
  obtain ⟨before, after, rfl⟩ := List.append_of_mem hfirst
  have hbefore := hmono before
  have hafter := hmono after
  rw [List.countP_append, List.countP_append, List.countP_cons_of_neg (by simp),
    List.countP_cons_of_pos (by simpa using h)]
  omega

theorem countP_lt_le_countP_lt (hfirst : first ∈ all) (htarget : target ∈ all) :
    all.countP (· < first) ≤ all.countP (· < target) ↔ first ≤ target := by
  rcases lt_trichotomy first target with hlt | rfl | hlt
  · exact iff_of_true (countP_lt_lt_countP_lt hfirst hlt).le hlt.le
  · simp
  · exact iff_of_false (not_le.mpr (countP_lt_lt_countP_lt htarget hlt)) (not_le.mpr hlt)

theorem countP_lt_lt_length (hfirst : first ∈ all) : all.countP (· < first) < all.length := by
  rw [List.countP_lt_length_iff]
  exact ⟨first, hfirst, by simp⟩

theorem distance_lt (htarget : target ∈ all) (first : α) :
    distance all first target < all.length :=
  waiting_lt (List.length_pos_of_mem htarget) _ _

theorem distance_eq (hfirst : first ∈ all) (htarget : target ∈ all) :
    distance all first target =
      if first ≤ target then all.countP (· < target) - all.countP (· < first)
      else all.countP (· < target) + all.length - all.countP (· < first) := by
  rw [distance, waiting_eq (countP_lt_lt_length htarget),
    Nat.mod_eq_of_lt (countP_lt_lt_length hfirst)]
  simp only [countP_lt_le_countP_lt hfirst htarget]

theorem distance_self (htarget : target ∈ all) : distance all target target = 0 := by
  rw [distance_eq htarget htarget, if_pos le_rfl, Nat.sub_self]

theorem eq_of_distance_eq_zero (hfirst : first ∈ all) (htarget : target ∈ all)
    (h : distance all first target = 0) : first = target := by
  have hlength := countP_lt_lt_length hfirst
  rw [distance_eq hfirst htarget] at h
  split at h
  · rename_i hle
    have hcount : all.countP (· < target) ≤ all.countP (· < first) := by omega
    exact le_antisymm hle ((countP_lt_le_countP_lt htarget hfirst).mp hcount)
  · omega

/-- The element after the one at the cursor is nearer to any other element of the list. -/
theorem distance_next_lt (h : list.SortedLE) (hsubset : list ⊆ all) (hfirst : first ∈ all)
    (htarget : target ∈ list) (hne : first ≠ target)
    (hnext : list[nextPlace list first]? = some next) :
    distance all next target < distance all first target := by
  have hmem : target ∈ all := hsubset htarget
  have hmemNext : next ∈ all := hsubset (List.mem_of_getElem? hnext)
  have hlength := countP_lt_lt_length hmemNext
  rw [distance_eq hfirst hmem, distance_eq hmemNext hmem]
  rcases nextPlace_spec h hnext with ⟨hahead, hleast⟩ | hround
  · have hless := countP_lt_lt_countP_lt hfirst hahead
    rcases hne.lt_or_gt with hlt | hgt
    · have hle : next ≤ target := hleast target htarget hlt
      have hcount := (countP_lt_le_countP_lt hmemNext hmem).mpr hle
      simp only [hlt.le, hle, if_true]
      omega
    · simp only [not_le.mpr hgt, not_le.mpr (hgt.trans hahead), if_false]
      omega
  · -- the cursor has gone round
    obtain ⟨hle, hleNext⟩ := hround target htarget
    have hfirstLength := countP_lt_lt_length hfirst
    simp only [hleNext, not_le.mpr (hle.lt_of_ne hne.symm), if_true, if_false]
    omega

/-- Distances that go down from turn to turn reach 0 in time. -/
theorem zero_mem {times : List ℕ} (hne : times ≠ [])
    (hchain : times.IsChain fun before after => before = 0 ∨ after < before)
    (hhead : times.head hne < times.length) : 0 ∈ times := by
  induction times with
  | nil => exact absurd rfl hne
  | cons time rest ih =>
      cases rest with
      | nil =>
          have : time = 0 := by simpa using hhead
          simp [this]
      | cons next rest =>
          obtain ⟨hfirst, hrest⟩ := List.isChain_cons_cons.mp hchain
          rcases hfirst with rfl | hless
          · exact List.mem_cons_self
          · refine List.mem_cons_of_mem _ (ih (List.cons_ne_nil _ _) hrest ?_)
            simp only [List.head_cons, List.length_cons] at hhead ⊢
            omega

end Rotation
