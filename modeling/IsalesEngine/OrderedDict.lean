import Mathlib.Data.List.Nodup

/-!
Maps that keep the order in which their keys came, like `collections.OrderedDict`
of Python. A key is there at most once. Assigning to a new key puts it last,
assigning to an old one leaves it in its place; a key can be moved to the end, and
the first entry can be taken out.
-/
structure OrderedDict (K V : Type) where
  entries : List (K × V)
  nodup : (entries.map Prod.fst).Nodup

namespace OrderedDict
variable {K V : Type}

def empty : OrderedDict K V := ⟨[], List.nodup_nil⟩

def keys (d : OrderedDict K V) : List K := d.entries.map Prod.fst

def length (d : OrderedDict K V) : Nat := d.entries.length

/-- `popitem(last=False)`. -/
def popFirst : OrderedDict K V → Option ((K × V) × OrderedDict K V)
  | ⟨[], _⟩ => none
  | ⟨entry :: rest, nodup⟩ => some (entry, ⟨rest, (List.nodup_cons.mp nodup).2⟩)

variable [DecidableEq K]

def get? (d : OrderedDict K V) (key : K) : Option V :=
  (d.entries.find? fun entry => entry.1 = key).map Prod.snd

theorem map_fst_filter (entries : List (K × V)) (key : K) :
    (entries.filter fun entry => entry.1 ≠ key).map Prod.fst =
      (entries.map Prod.fst).filter (· ≠ key) := by
  rw [List.filter_map]
  rfl

def delete (d : OrderedDict K V) (key : K) : OrderedDict K V where
  entries := d.entries.filter fun entry => entry.1 ≠ key
  nodup := by
    rw [map_fst_filter]
    exact d.nodup.filter _

theorem keys_delete (d : OrderedDict K V) (key : K) :
    (d.delete key).keys = d.keys.filter (· ≠ key) := map_fst_filter d.entries key

theorem not_mem_keys_delete (d : OrderedDict K V) (key : K) : key ∉ (d.delete key).keys := by
  simp [keys_delete]

omit [DecidableEq K] in
theorem nodup_concat {d : OrderedDict K V} {key : K} (fresh : key ∉ d.keys) (value : V) :
    ((d.entries ++ [(key, value)]).map Prod.fst).Nodup := by
  rw [List.map_append, List.map_singleton, ← List.concat_eq_append]
  exact d.nodup.concat fresh

theorem map_fst_replace (entries : List (K × V)) (key : K) (value : V) :
    (entries.map fun entry => if entry.1 = key then (key, value) else entry).map Prod.fst =
      entries.map Prod.fst := by
  rw [List.map_map]
  apply List.map_congr_left
  intro entry _
  by_cases same : entry.1 = key
  · simp [same]
  · simp [same]

/-- `d[key] = value`. -/
def set (d : OrderedDict K V) (key : K) (value : V) : OrderedDict K V :=
  if present : key ∈ d.keys then
    ⟨d.entries.map fun entry => if entry.1 = key then (key, value) else entry, by
      rw [map_fst_replace]
      exact d.nodup⟩
  else ⟨d.entries ++ [(key, value)], nodup_concat present value⟩

def moveToEnd (d : OrderedDict K V) (key : K) : OrderedDict K V :=
  match d.get? key with
  | some value =>
      ⟨(d.delete key).entries ++ [(key, value)], nodup_concat (d.not_mem_keys_delete key) value⟩
  | none => d

variable {d : OrderedDict K V} {key : K} {value : V}

theorem get?_eq_some : d.get? key = some value ↔ (key, value) ∈ d.entries := by
  obtain ⟨entries, nodup⟩ := d
  induction entries with
  | nil => simp [get?]
  | cons entry entries ih =>
      obtain ⟨k, v⟩ := entry
      rw [List.map_cons, List.nodup_cons] at nodup
      have rest := ih nodup.2
      by_cases same : k = key
      · subst same
        have absent : (k, value) ∉ entries := fun member =>
          nodup.1 (List.mem_map.mpr ⟨_, member, rfl⟩)
        simp [get?, absent, eq_comm]
      · simp only [get?, List.find?_cons, same, decide_false, List.mem_cons, Prod.mk.injEq]
        simp only [get?] at rest
        simpa [Ne.symm same] using rest

theorem get?_eq_none : d.get? key = none ↔ key ∉ d.keys := by
  constructor
  · intro missing member
    obtain ⟨⟨k, v⟩, inside, rfl⟩ := List.mem_map.mp member
    rw [get?_eq_some.mpr inside] at missing
    cases missing
  · intro absent
    apply Option.eq_none_iff_forall_ne_some.mpr
    intro value found
    exact absent (List.mem_map.mpr ⟨_, get?_eq_some.mp found, rfl⟩)

theorem entries_delete_of_none (missing : d.get? key = none) :
    (d.delete key).entries = d.entries := by
  apply List.filter_eq_self.mpr
  intro entry inside
  apply decide_eq_true
  rintro rfl
  exact get?_eq_none.mp missing (List.mem_map.mpr ⟨entry, inside, rfl⟩)

theorem set_of_fresh (fresh : key ∉ d.keys) :
    (d.set key value).entries = d.entries ++ [(key, value)] := by
  rw [set, dif_neg fresh]

section
variable (found : d.get? key = some value)
include found

theorem moveToEnd_of_some :
    (d.moveToEnd key).entries = (d.delete key).entries ++ [(key, value)] := by
  rw [moveToEnd]
  split
  · rename_i other same
    rw [found] at same
    rw [Option.some.inj same]
  · rename_i missing
    rw [found] at missing
    cases missing

/-- Taking a key out and putting it last changes the order only. -/
theorem entries_perm : d.entries.Perm ((d.delete key).entries ++ [(key, value)]) := by
  have inside := get?_eq_some.mp found
  apply (List.perm_ext_iff_of_nodup (List.Nodup.of_map _ d.nodup)
    (List.Nodup.of_map _ (nodup_concat (d.not_mem_keys_delete key) value))).mpr
  intro entry
  obtain ⟨k, v⟩ := entry
  by_cases same : k = key
  · subst same
    have only : (k, v) ∈ d.entries ↔ v = value := by
      rw [← get?_eq_some, found, Option.some.injEq, eq_comm]
    simp [delete, only]
  · simp [delete, same]

/-- The order is not seen by a lookup. -/
theorem get?_moveToEnd (other : K) : (d.moveToEnd key).get? other = d.get? other := by
  apply Option.ext
  intro v
  rw [get?_eq_some, get?_eq_some, moveToEnd_of_some found]
  exact (entries_perm found).mem_iff.symm

end

theorem get?_delete (other : K) :
    (d.delete key).get? other = if other = key then none else d.get? other := by
  apply Option.ext
  intro value
  rw [get?_eq_some]
  by_cases same : other = key
  · simp [delete, same]
  · simp [delete, same, get?_eq_some]

theorem get?_set_of_fresh (fresh : key ∉ d.keys) (other : K) :
    (d.set key value).get? other = if other = key then some value else d.get? other := by
  have absent : ∀ v, (key, v) ∉ d.entries := fun v inside =>
    fresh (List.mem_map.mpr ⟨_, inside, rfl⟩)
  apply Option.ext
  intro v
  rw [get?_eq_some, set_of_fresh fresh]
  by_cases same : other = key
  · simp [same, absent, eq_comm]
  · simp [same, get?_eq_some]

/-- What is left of a map after its first entries were taken out. -/
theorem get?_of_suffix {left : OrderedDict K V} (suffix : left.entries <:+ d.entries) (k : K) :
    left.get? k = if k ∈ left.keys then d.get? k else none := by
  by_cases inside : k ∈ left.keys
  · rw [if_pos inside]
    obtain ⟨⟨_, value⟩, entry, rfl⟩ := List.mem_map.mp inside
    rw [get?_eq_some.mpr entry, get?_eq_some.mpr (suffix.subset entry)]
  · rw [if_neg inside, get?_eq_none.mpr inside]

end OrderedDict
