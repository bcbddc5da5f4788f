import Mathlib.Algebra.BigOperators.Group.List.Lemmas
import Mathlib.Algebra.GroupWithZero.Nat
import Mathlib.Data.List.Induction
import Mathlib.Data.List.Nodup

/-!
# Dictionaries

A dictionary keeps its items in the order in which their keys were first set; setting
a key again changes the value in its place.  `get?` is what a dictionary is as a map,
and two of them are `Same` if these are equal.

`ofPairs` sets one pair after the other, and `tally` counts.
-/

/-- Keys and values, in the order of the keys. -/
structure Dict (κ ν : Type*) where
  items : List (κ × ν)
  nodup : (items.map Prod.fst).Nodup

namespace Dict

variable {κ ν α : Type*} [DecidableEq κ]

def empty : Dict κ ν := ⟨[], List.nodup_nil⟩

def get? (d : Dict κ ν) (key : κ) : Option ν := d.items.lookup key

def values (d : Dict κ ν) : List ν := d.items.map Prod.snd

/-- Equal as maps, whatever the order. -/
def Same (d d' : Dict κ ν) : Prop := ∀ key, d.get? key = d'.get? key

/-! ## Setting a key -/

theorem lookup_cons (item : κ × ν) (items : List (κ × ν)) (key : κ) :
    (item :: items).lookup key = if key = item.1 then some item.2 else items.lookup key := by
  by_cases hkey : key = item.1
  · rw [if_pos hkey, hkey, List.lookup_cons_self]
  · have hbeq : (key == item.1) = false := by simp [hkey]
    rw [if_neg hkey, List.lookup_cons, hbeq]

def setItem (key : κ) (value : ν) : List (κ × ν) → List (κ × ν)
  | [] => [(key, value)]
  | item :: items =>
      if item.1 = key then (key, value) :: items else item :: setItem key value items

theorem keys_setItem (key : κ) (value : ν) (items : List (κ × ν)) :
    (setItem key value items).map Prod.fst =
      if key ∈ items.map Prod.fst then items.map Prod.fst else items.map Prod.fst ++ [key] := by
  induction items with
  | nil => rfl
  | cons item items ih =>
      by_cases hkey : item.1 = key
      · simp [setItem, hkey]
      · have hne : key ≠ item.1 := fun h => hkey h.symm
        rw [setItem, if_neg hkey, List.map_cons, ih]
        by_cases hmem : key ∈ items.map Prod.fst
        · rw [if_pos hmem, if_pos (by simp [hmem]), List.map_cons]
        · rw [if_neg hmem, if_neg (by simp [hmem, hne]), List.map_cons, List.cons_append]

theorem nodup_setItem (key : κ) (value : ν) {items : List (κ × ν)}
    (h : (items.map Prod.fst).Nodup) : ((setItem key value items).map Prod.fst).Nodup := by
  rw [keys_setItem]
  split
  · exact h
  · rw [List.nodup_append_comm, List.singleton_append, List.nodup_cons]
    exact ⟨‹_›, h⟩

def set (d : Dict κ ν) (key : κ) (value : ν) : Dict κ ν :=
  ⟨setItem key value d.items, nodup_setItem key value d.nodup⟩

theorem lookup_setItem (key : κ) (value : ν) (items : List (κ × ν)) (other : κ) :
    (setItem key value items).lookup other =
      if other = key then some value else items.lookup other := by
  induction items with
  | nil => rw [setItem, lookup_cons]
  | cons item items ih =>
      by_cases hkey : item.1 = key
      · rw [setItem, if_pos hkey, lookup_cons, lookup_cons, hkey]
        by_cases hother : other = key
        · rw [if_pos hother, if_pos hother]
        · rw [if_neg hother, if_neg hother, if_neg hother]
      · rw [setItem, if_neg hkey, lookup_cons, lookup_cons, ih]
        by_cases hother : other = item.1
        · have hne : other ≠ key := fun h => hkey (hother ▸ h)
          rw [if_pos hother, if_neg hne, if_pos hother]
        · rw [if_neg hother, if_neg hother]

@[simp] theorem get?_set (d : Dict κ ν) (key : κ) (value : ν) (other : κ) :
    (d.set key value).get? other = if other = key then some value else d.get? other :=
  lookup_setItem key value d.items other

@[simp] theorem get?_empty (key : κ) : (empty : Dict κ ν).get? key = none := rfl

theorem setItem_of_notMem {key : κ} {items : List (κ × ν)} (h : key ∉ items.map Prod.fst)
    (value : ν) : setItem key value items = items ++ [(key, value)] := by
  induction items with
  | nil => rfl
  | cons item items ih =>
      simp only [List.map_cons, List.mem_cons, not_or] at h
      rw [setItem, if_neg (Ne.symm h.1), ih h.2, List.cons_append]

theorem mem_iff_lookup {items : List (κ × ν)} (hnodup : (items.map Prod.fst).Nodup) {key : κ}
    {value : ν} : (key, value) ∈ items ↔ items.lookup key = some value := by
  induction items with
  | nil => simp
  | cons item items ih =>
      rw [List.map_cons, List.nodup_cons] at hnodup
      rw [lookup_cons, List.mem_cons, ih hnodup.2]
      by_cases hkey : key = item.1
      · have hnotMem : items.lookup key = none := by
          rw [List.lookup_eq_none_iff]
          intro other hother
          have hne : key ≠ other.1 := fun h => hnodup.1 (hkey ▸ h ▸ List.mem_map_of_mem hother)
          simpa using hne
        rw [if_pos hkey, hnotMem, hkey]
        simp [Prod.ext_iff, eq_comm]
      · rw [if_neg hkey]
        simp [Prod.ext_iff, hkey]

/-! ## One pair after the other -/

def ofPairs (pairs : List (κ × ν)) : Dict κ ν :=
  pairs.foldl (fun d pair => d.set pair.1 pair.2) empty

/-- Where no key is repeated the items are the pairs. -/
theorem items_ofPairs {pairs : List (κ × ν)} (h : (pairs.map Prod.fst).Nodup) :
    (ofPairs pairs).items = pairs := by
  induction pairs using List.reverseRecOn with
  | nil => rfl
  | append_singleton pairs pair ih =>
      rw [List.map_append, List.map_singleton, List.nodup_append_comm, List.singleton_append,
        List.nodup_cons] at h
      have hitems := ih h.2
      calc (ofPairs (pairs ++ [pair])).items
          = setItem pair.1 pair.2 (ofPairs pairs).items := by
            rw [ofPairs, List.foldl_append]
            rfl
        _ = setItem pair.1 pair.2 pairs := by rw [hitems]
        _ = pairs ++ [pair] := setItem_of_notMem h.1 _

/-! ## Counting -/

/-- `d[key] = d.get(key, 0) + 1`. -/
def increment (d : Dict κ ℕ) (key : κ) : Dict κ ℕ := d.set key ((d.get? key).getD 0 + 1)

/-- How many of the elements have which key. -/
def tally (key : α → κ) (elements : List α) : Dict κ ℕ :=
  elements.foldl (fun d element => d.increment (key element)) empty

theorem tally_append_singleton (key : α → κ) (elements : List α) (element : α) :
    tally key (elements ++ [element]) = (tally key elements).increment (key element) := by
  simp [tally]

theorem getD_tally (key : α → κ) (elements : List α) (k : κ) :
    ((tally key elements).get? k).getD 0 = elements.countP (key · = k) := by
  induction elements using List.reverseRecOn with
  | nil => rfl
  | append_singleton elements element ih =>
      rw [tally_append_singleton, increment, get?_set, List.countP_append, ← ih]
      by_cases hkey : k = key element
      · subst hkey
        simp
      · simp [hkey, Ne.symm hkey]

/-- A key is there exactly if some element has it. -/
theorem get?_tally (key : α → κ) (elements : List α) (k : κ) :
    (tally key elements).get? k =
      if elements.countP (key · = k) = 0 then none else some (elements.countP (key · = k)) := by
  induction elements using List.reverseRecOn with
  | nil => rfl
  | append_singleton elements element ih =>
      rw [tally_append_singleton, increment, get?_set, List.countP_append, getD_tally]
      by_cases hkey : k = key element
      · subst hkey
        simp
      · simp [hkey, Ne.symm hkey, ih]

theorem tally_same_of_perm (key : α → κ) {elements elements' : List α}
    (h : elements.Perm elements') : (tally key elements).Same (tally key elements') := by
  intro k
  rw [get?_tally, get?_tally, h.countP_eq]

theorem sum_setItem (key : κ) (value : ℕ) (items : List (κ × ℕ)) :
    ((setItem key value items).map Prod.snd).sum + (items.lookup key).getD 0 =
      (items.map Prod.snd).sum + value := by
  induction items with
  | nil => simp [setItem]
  | cons item items ih =>
      by_cases hkey : item.1 = key
      · rw [setItem, if_pos hkey, lookup_cons, if_pos hkey.symm]
        simp only [List.map_cons, List.sum_cons, Option.getD_some]
        omega
      · rw [setItem, if_neg hkey, lookup_cons, if_neg (Ne.symm hkey)]
        simp only [List.map_cons, List.sum_cons]
        omega

/-- Everything is counted once. -/
theorem sum_tally (key : α → κ) (elements : List α) :
    (tally key elements).values.sum = elements.length := by
  induction elements using List.reverseRecOn with
  | nil => rfl
  | append_singleton elements element ih =>
      have hset := sum_setItem (key element) (((tally key elements).get? (key element)).getD 0 + 1)
        (tally key elements).items
      rw [tally_append_singleton, List.length_append, List.length_singleton, ← ih]
      simp only [values, increment, set, get?] at hset ⊢
      omega

end Dict
