import Mathlib.Data.List.Basic

/-!
# Greedy partitions

A list is cut into blocks from the left, and each block is the longest prefix of
what remains that fits.  What fits is any property that passes to prefixes.

* A greedy partition is unique (`Partition.unique`), loses nothing
  (`Partition.flatten_eq`), and exists if every single element fits
  (`exists_partition`).
* `Longest.of_not_fits` is how a program recognises the longest prefix that fits
  from left to right: the next element does not fit in any more.
-/

namespace Greedy

variable {α : Type*} {Fits : List α → Prop}

/-- `block` is the longest prefix of `block ++ rest` that fits. -/
structure Longest (Fits : List α → Prop) (block rest : List α) : Prop where
  ne_nil : block ≠ []
  fits : Fits block
  longest : ∀ longer, longer <+: block ++ rest → Fits longer → longer.length ≤ block.length

/-- `blocks` is the greedy partition of the list. -/
inductive Partition (Fits : List α → Prop) : List α → List (List α) → Prop
  | nil : Partition Fits [] []
  | cons {block rest : List α} {blocks : List (List α)} (hblock : Longest Fits block rest)
      (hrest : Partition Fits rest blocks) :
      Partition Fits (block ++ rest) (block :: blocks)

/-- What fits still fits when elements are left out at its end. -/
def PrefixClosed (Fits : List α → Prop) : Prop :=
  ∀ short long : List α, short <+: long → Fits long → Fits short

/-! ## Uniqueness -/

theorem Longest.unique {block rest block' rest' : List α} (h : Longest Fits block rest)
    (h' : Longest Fits block' rest') (heq : block ++ rest = block' ++ rest') :
    block = block' ∧ rest = rest' := by
  have hle : block'.length ≤ block.length :=
    h.longest block' (heq ▸ List.prefix_append block' rest') h'.fits
  have hge : block.length ≤ block'.length :=
    h'.longest block (heq ▸ List.prefix_append block rest) h.fits
  exact List.append_inj heq (Nat.le_antisymm hge hle)

theorem Partition.unique {list : List α} {blocks blocks' : List (List α)}
    (h : Partition Fits list blocks) (h' : Partition Fits list blocks') : blocks = blocks' := by
  induction h generalizing blocks' with
  | nil =>
      generalize hlist : ([] : List α) = list at h'
      cases h' with
      | nil => rfl
      | cons hblock _ => exact absurd (List.append_eq_nil_iff.mp hlist.symm).1 hblock.ne_nil
  | @cons block rest blocks hblock hrest ih =>
      generalize hlist : block ++ rest = list at h'
      cases h' with
      | nil => exact absurd (List.append_eq_nil_iff.mp hlist).1 hblock.ne_nil
      | cons hblock' hrest' =>
          obtain ⟨rfl, rfl⟩ := hblock.unique hblock' hlist
          rw [ih hrest']

theorem Partition.flatten_eq {list : List α} {blocks : List (List α)}
    (h : Partition Fits list blocks) : blocks.flatten = list := by
  induction h with
  | nil => rfl
  | cons _ _ ih => rw [List.flatten_cons, ih]

/-! ## Finding the blocks from left to right -/

/-- When everything has been taken, nothing longer is left. -/
theorem Longest.of_nil {block : List α} (hne : block ≠ []) (hfits : Fits block) :
    Longest Fits block [] := by
  refine ⟨hne, hfits, fun longer hstarts _ => ?_⟩
  rw [List.append_nil] at hstarts
  exact hstarts.length_le

/-- A block is complete when the next element does not fit in. -/
theorem Longest.of_not_fits (hclosed : PrefixClosed Fits) {block rest : List α} {next : α}
    (hne : block ≠ []) (hfits : Fits block) (hnext : ¬ Fits (block ++ [next])) :
    Longest Fits block (next :: rest) := by
  refine ⟨hne, hfits, fun longer hstarts hlonger => ?_⟩
  by_contra hlt
  have hblock : block ++ [next] <+: block ++ next :: rest := ⟨rest, by simp⟩
  have hcut : block ++ [next] <+: longer :=
    List.prefix_of_prefix_length_le hblock hstarts (by simp; omega)
  exact hnext (hclosed _ _ hcut hlonger)

/-- Every block that fits can be completed; the induction takes one element after the other. -/
theorem exists_longest (hclosed : PrefixClosed Fits) {block : List α} (hne : block ≠ [])
    (hfits : Fits block) (rest : List α) :
    ∃ more left, rest = more ++ left ∧ Longest Fits (block ++ more) left := by
  induction rest generalizing block with
  | nil => exact ⟨[], [], rfl, by simpa using Longest.of_nil hne hfits⟩
  | cons next rest ih =>
      by_cases hnext : Fits (block ++ [next])
      · obtain ⟨more, left, rfl, hlongest⟩ := ih (by simp) hnext
        exact ⟨next :: more, left, rfl, by simpa using hlongest⟩
      · exact ⟨[], next :: rest, rfl, by simpa using Longest.of_not_fits hclosed hne hfits hnext⟩

theorem exists_partition (hclosed : PrefixClosed Fits) {list : List α}
    (hsingle : ∀ element ∈ list, Fits [element]) : ∃ blocks, Partition Fits list blocks := by
  induction hlength : list.length using Nat.strongRecOn generalizing list with
  | _ length ih =>
      cases list with
      | nil => exact ⟨[], .nil⟩
      | cons first rest =>
          have hfirst := hsingle first List.mem_cons_self
          obtain ⟨more, left, rfl, hlongest⟩ := exists_longest hclosed (by simp) hfirst rest
          have hlt : left.length < length := by
            simp only [List.length_cons, List.length_append] at hlength
            omega
          obtain ⟨blocks, hblocks⟩ := ih left.length hlt
            (fun element hmem => hsingle element (by simp [hmem])) rfl
          exact ⟨_, Partition.cons hlongest hblocks⟩

end Greedy
