import Mathlib.Algebra.Order.BigOperators.Group.List
import Mathlib.Algebra.Order.Group.Nat
import Mathlib.Algebra.Ring.Nat
import Mathlib.Data.List.Dedup
import Mathlib.Data.List.Nodup
import IsalesEngine.Refinement

/-!
A bounded map that forgets what was used least recently. Its entries stand in the
order of their last use; a value has a weight, and the map holds a limited number
of entries of a limited total weight. What does not fit any more goes from the
oldest end, and no more of it than necessary; a value that alone is too heavy is
not taken up, and the old value of its key is given up.
-/
namespace Lru
open Refinement

structure Limits (V : Type) where
  maxEntries : Nat
  maxWeight : Nat
  weight : V → Nat

inductive Request (K V : Type) where
  | get (key : K)
  | put (key : K) (value : V)
  | length
  | weight
  deriving DecidableEq, Repr

inductive Answer (V : Type) where
  | value (v : Option V)
  | done
  | number (n : Int)
  deriving DecidableEq, Repr

section Model
variable {K V : Type} [DecidableEq K] (limits : Limits V)

def total (entries : List (K × V)) : Nat := (entries.map fun entry => limits.weight entry.2).sum

def Fits (entries : List (K × V)) : Prop :=
  entries.length ≤ limits.maxEntries ∧ total limits entries ≤ limits.maxWeight

instance (entries : List (K × V)) : Decidable (Fits limits entries) :=
  inferInstanceAs (Decidable (_ ∧ _))

/-- The most recently used entries, as many as fit. -/
def trim (entries : List (K × V)) : List (K × V) :=
  (entries.tails.find? fun recent => Fits limits recent).getD []

def without (key : K) (entries : List (K × V)) : List (K × V) :=
  entries.filter fun entry => entry.1 ≠ key

/-- The key was used last. -/
def use (key : K) (value : V) (entries : List (K × V)) : List (K × V) :=
  without key entries ++ [(key, value)]

def lookup (key : K) (entries : List (K × V)) : Option V :=
  (entries.find? fun entry => entry.1 = key).map Prod.snd

def put (key : K) (value : V) (entries : List (K × V)) : List (K × V) :=
  if limits.weight value ≤ limits.maxWeight then trim limits (use key value entries)
  else without key entries

def serve (entries : List (K × V)) : Request K V → Answer V × List (K × V)
  | .get key =>
      match lookup key entries with
      | some value => (.value (some value), use key value entries)
      | none => (.value none, entries)
  | .put key value => (.done, put limits key value entries)
  | .length => (.number entries.length, entries)
  | .weight => (.number (total limits entries), entries)

def object : Object (List (K × V)) (Request K V) (Answer V) where
  step := serve limits

end Model

section Trim
variable {K V : Type} {limits : Limits V} {entries : List (K × V)} {entry : K × V}

theorem total_perm {more : List (K × V)} (perm : entries.Perm more) :
    total limits entries = total limits more := (perm.map _).sum_eq

theorem total_append (entries more : List (K × V)) :
    total limits (entries ++ more) = total limits entries + total limits more := by
  simp [total]

theorem total_cons (entry : K × V) (entries : List (K × V)) :
    total limits (entry :: entries) = limits.weight entry.2 + total limits entries := by
  simp [total]

/-- Fewer entries fit as well, in any order. -/
theorem Fits.subperm {fewer : List (K × V)} (fits : Fits limits entries)
    (subperm : fewer.Subperm entries) : Fits limits fewer := by
  obtain ⟨same, perm, sublist⟩ := subperm
  have lighter := (sublist.map fun entry => limits.weight entry.2).sum_le_sum
    fun _ _ => Nat.zero_le _
  constructor
  · rw [← perm.length_eq]
    exact Nat.le_trans sublist.length_le fits.1
  · rw [← total_perm perm]
    exact Nat.le_trans lighter fits.2

theorem fits_nil (limits : Limits V) : Fits limits ([] : List (K × V)) :=
  ⟨Nat.zero_le _, Nat.zero_le _⟩

@[simp] theorem trim_nil : trim limits ([] : List (K × V)) = [] := by
  simp [trim, fits_nil]

theorem trim_of_fits (fits : Fits limits entries) : trim limits entries = entries := by
  cases entries with
  | nil => exact trim_nil
  | cons entry entries => simp [trim, fits]

theorem trim_cons (tooMuch : ¬ Fits limits (entry :: entries)) :
    trim limits (entry :: entries) = trim limits entries := by
  simp [trim, tooMuch]

/-- Entries go from the oldest end only. -/
theorem trim_suffix (entries : List (K × V)) : trim limits entries <:+ entries := by
  induction entries with
  | nil => simp
  | cons entry entries ih =>
      by_cases fits : Fits limits (entry :: entries)
      · exact (trim_of_fits fits).symm ▸ List.suffix_rfl
      · rw [trim_cons fits]
        exact ih.trans (List.suffix_cons entry entries)

theorem fits_trim (entries : List (K × V)) : Fits limits (trim limits entries) := by
  induction entries with
  | nil =>
      rw [trim_nil]
      exact fits_nil limits
  | cons entry entries ih =>
      by_cases fits : Fits limits (entry :: entries)
      · rwa [trim_of_fits fits]
      · rwa [trim_cons fits]

/-- No more entries go than necessary. -/
theorem suffix_trim {recent : List (K × V)} (fits : Fits limits recent)
    (suffix : recent <:+ entries) : recent <:+ trim limits entries := by
  induction entries with
  | nil => rwa [trim_nil]
  | cons entry entries ih =>
      by_cases whole : Fits limits (entry :: entries)
      · rwa [trim_of_fits whole]
      · rw [trim_cons whole]
        apply ih
        obtain same | shorter := List.suffix_cons_iff.mp suffix
        · rw [same] at fits
          exact absurd fits whole
        · exact shorter

end Trim

section Bounds
variable {K V : Type} [DecidableEq K] {limits : Limits V} {entries : List (K × V)} {key : K}
  {value : V}

/-- A use of what is there adds nothing. -/
theorem use_subperm (found : lookup key entries = some value) :
    (use key value entries).Subperm entries := by
  obtain ⟨entry, first, same⟩ := Option.map_eq_some_iff.mp found
  have inside : (key, value) ∈ entries.filter fun entry => !decide (entry.1 ≠ key) := by
    have own : entry.1 = key := by simpa using List.find?_some first
    obtain rfl : entry = (key, value) := Prod.ext own same
    simpa using List.mem_of_find?_eq_some first
  have fewer := (List.Sublist.refl (without key entries)).append (List.singleton_sublist.mpr inside)
  exact fewer.subperm.trans (List.filter_append_perm _ entries).subperm

theorem fits_serve (fits : Fits limits entries) (request : Request K V) :
    Fits limits (serve limits entries request).2 := by
  cases request with
  | get key =>
      simp only [serve]
      split
      · rename_i found
        exact fits.subperm (use_subperm found)
      · exact fits
  | put key value =>
      simp only [serve, put]
      split
      · exact fits_trim _
      · exact fits.subperm List.filter_sublist.subperm
  | length | weight => exact fits

/-- A value that fits is taken up, unless the map may not hold anything. -/
theorem lookup_put (light : limits.weight value ≤ limits.maxWeight) :
    lookup key (put limits key value entries) = none ↔ limits.maxEntries = 0 := by
  rw [put, if_pos light]
  constructor
  · intro missing
    by_contra room
    have fits : Fits limits [(key, value)] :=
      ⟨Nat.one_le_iff_ne_zero.mpr room, by simpa [total] using light⟩
    have kept := (suffix_trim fits (List.suffix_append (without key entries) _)).subset
      (List.mem_singleton.mpr rfl)
    rw [lookup, Option.map_eq_none_iff, List.find?_eq_none] at missing
    exact missing (key, value) kept (decide_eq_true rfl)
  · intro nothing
    have fits : Fits limits (trim limits (use key value entries)) := fits_trim _
    have short := fits.1
    rw [nothing] at short
    rw [List.eq_nil_of_length_eq_zero (Nat.le_zero.mp short)]
    rfl

end Bounds

section Order
variable {K V : Type} [DecidableEq K] {limits : Limits V} {entries : List (K × V)}

/-- The keys a request uses: one that is found, or one that is put. -/
def uses (entries : List (K × V)) : Request K V → List K
  | .get key => if (lookup key entries).isSome then [key] else []
  | .put key _ => [key]
  | .length | .weight => []

omit [DecidableEq K] in
theorem map_fst_sublist {recent : List (K × V)} (suffix : recent <:+ entries) :
    (recent.map Prod.fst).Sublist (entries.map Prod.fst) := suffix.sublist.map Prod.fst

theorem map_fst_without (key : K) (entries : List (K × V)) :
    (without key entries).map Prod.fst = (entries.map Prod.fst).filter (· ≠ key) := by
  rw [without, List.filter_map]
  rfl

theorem map_fst_use (key : K) (value : V) (entries : List (K × V)) :
    (use key value entries).map Prod.fst = (entries.map Prod.fst).filter (· ≠ key) ++ [key] := by
  rw [use, List.map_append, map_fst_without]
  rfl

/-- A use moves the key behind all others. -/
theorem dedup_concat (seen : List K) (key : K) :
    (seen ++ [key]).dedup = seen.dedup.filter (· ≠ key) ++ [key] := by
  induction seen with
  | nil => rfl
  | cons first seen ih =>
      by_cases again : first ∈ seen
      · rw [List.cons_append, List.dedup_cons_of_mem (List.mem_append_left _ again), ih,
          List.dedup_cons_of_mem again]
      · by_cases same : first = key
        · subst same
          rw [List.cons_append, List.dedup_cons_of_mem (by simp), ih,
            List.dedup_cons_of_notMem again]
          simp
        · have absent : first ∉ seen ++ [key] := by simp [again, same]
          rw [List.cons_append, List.dedup_cons_of_notMem absent, ih,
            List.dedup_cons_of_notMem again]
          simp [same]

theorem used_sublist {seen : List K} {keys : List K} (key : K) (ordered : keys.Sublist seen.dedup) :
    (keys.filter (· ≠ key) ++ [key]).Sublist (seen ++ [key]).dedup := by
  rw [dedup_concat]
  exact (ordered.filter _).append_right [key]

theorem ordered_step (entries : List (K × V)) (request : Request K V) (seen : List K)
    (ordered : (entries.map Prod.fst).Sublist seen.dedup) :
    ((serve limits entries request).2.map Prod.fst).Sublist
      (seen ++ uses entries request).dedup := by
  cases request with
  | get key =>
      cases found : lookup key entries with
      | none => simpa [serve, uses, found] using ordered
      | some value =>
          simp only [serve, uses, found, map_fst_use]
          exact used_sublist key ordered
  | put key value =>
      have used := used_sublist key ordered
      change ((put limits key value entries).map Prod.fst).Sublist (seen ++ [key]).dedup
      by_cases light : limits.weight value ≤ limits.maxWeight
      · rw [put, if_pos light]
        rw [← map_fst_use key value entries] at used
        exact (map_fst_sublist (trim_suffix _)).trans used
      · rw [put, if_neg light, map_fst_without]
        exact (List.sublist_append_left _ [key]).trans used
  | length | weight => simpa [serve, uses] using ordered

/-- The entries stand in the order of the last use of their keys. -/
theorem ordered_by_use (requests : List (Request K V)) :
    (((object limits).after [] requests).map Prod.fst).Sublist
      ((object limits).collect uses [] requests).dedup := by
  have start : (List.map Prod.fst ([] : List (K × V))).Sublist ([] : List K).dedup :=
    List.nil_sublist _
  exact Object.collect_invariant (O := object limits)
    (J := fun entries seen => (entries.map Prod.fst).Sublist seen.dedup) ordered_step start requests

end Order
end Lru
