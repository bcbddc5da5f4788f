import Mathlib.Algebra.GroupWithZero.Nat
import Mathlib.Data.List.Basic

/-!
# Flattening blocks and cutting them out again

Blocks are concatenated, something is done to every element, and each block is
cut out of the result at its offset.  `offsets` are the half-open intervals the
blocks occupy; `slice_of_mem_zip` says that each interval cuts out its own block,
and `slice_map_of_mem_zip` that this is still so after a map over the elements.
-/

namespace Slices

variable {α β : Type*}

/-- `list[start:stop]`, for bounds that are not negative. -/
def slice (list : List α) (start stop : ℕ) : List α := (list.take stop).drop start

/-- The intervals that blocks of the given lengths occupy, from `start` on. -/
def offsets : ℕ → List ℕ → List (ℕ × ℕ)
  | _, [] => []
  | start, length :: lengths => (start, start + length) :: offsets (start + length) lengths

theorem offsets_append (start : ℕ) (lengths more : List ℕ) :
    offsets start (lengths ++ more) =
      offsets start lengths ++ offsets (start + lengths.sum) more := by
  induction lengths generalizing start with
  | nil => simp [offsets]
  | cons length lengths ih => simp [offsets, ih, Nat.add_assoc]

/-- The interval of a block that comes after `before` cuts it out. -/
theorem slice_append (before block after : List α) :
    slice (before ++ block ++ after) before.length (before.length + block.length) = block := by
  have htake : (before ++ block ++ after).take (before.length + block.length) =
      before ++ block := by
    rw [← List.length_append, List.take_left]
  rw [slice, htake, List.drop_left]

theorem slice_map (f : α → β) (list : List α) (start stop : ℕ) :
    slice (list.map f) start stop = (slice list start stop).map f := by
  simp [slice, List.map_take, List.map_drop]

/-- Each interval cuts out its own block; the induction carries what came before. -/
theorem slice_of_mem_zip (before : List α) (blocks : List (List α)) {block : List α}
    {start stop : ℕ}
    (hmem : (block, start, stop) ∈
      blocks.zip (offsets before.length (blocks.map List.length))) :
    slice (before ++ blocks.flatten) start stop = block := by
  induction blocks generalizing before with
  | nil => simp [offsets] at hmem
  | cons head blocks ih =>
      simp only [List.map_cons, offsets, List.zip_cons_cons, List.mem_cons, Prod.mk.injEq] at hmem
      rw [List.flatten_cons, ← List.append_assoc]
      rcases hmem with ⟨rfl, rfl, rfl⟩ | hrest
      · exact slice_append before block blocks.flatten
      · rw [← List.length_append] at hrest
        exact ih (before ++ head) hrest

/-- Cutting out a block and mapping its elements commute. -/
theorem slice_map_of_mem_zip (f : α → β) (blocks : List (List α)) {block : List α}
    {start stop : ℕ}
    (hmem : (block, start, stop) ∈ blocks.zip (offsets 0 (blocks.map List.length))) :
    slice (blocks.flatten.map f) start stop = block.map f := by
  rw [slice_map]
  congr 1
  exact slice_of_mem_zip [] blocks hmem

end Slices
