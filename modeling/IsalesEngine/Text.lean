import Mathlib.Data.List.DropRight

/-!
Text as the engine handles it: sequences of code points, with the whitespace
that `str.strip` removes. A text is stripped when neither end is whitespace;
joining stripped, non-empty texts gives a stripped text again.
-/
namespace IsalesEngine

abbrev Text : Type := List Char

namespace Text

instance : LawfulBEq Text := inferInstanceAs (LawfulBEq (List Char))

/-- `str.isspace` on one code point. -/
def isSpace (c : Char) : Bool :=
  let n := c.toNat
  (0x09 ≤ n && n ≤ 0x0D) || (0x1C ≤ n && n ≤ 0x20) || n = 0x85 || n = 0xA0 || n = 0x1680
    || (0x2000 ≤ n && n ≤ 0x200A) || n = 0x2028 || n = 0x2029 || n = 0x202F || n = 0x205F
    || n = 0x3000

def strip (t : Text) : Text := (t.dropWhile isSpace).rdropWhile isSpace

def rstripChars (chars : Text) (t : Text) : Text := t.rdropWhile (fun c => chars.contains c)

/-- `part in t`. -/
def includes (t part : Text) : Bool := (List.range (t.length + 1)).any fun i =>
  part.isPrefixOf (t.drop i)

/-- `" ".join(ts)`. -/
def joinSpace (ts : List Text) : Text := [' '].intercalate ts

def Stripped (t : Text) : Prop := strip t = t

instance (t : Text) : Decidable (Stripped t) := inferInstanceAs (Decidable (strip t = t))

theorem stripped_nil : Stripped [] := rfl

variable {t : Text} {ts : List Text}

theorem stripped_iff :
    Stripped t ↔ ∀ h : t ≠ [], ¬ isSpace (t.head h) ∧ ¬ isSpace (t.getLast h) := by
  constructor
  · intro stripped h
    have whole : (t.dropWhile isSpace).length = t.length := by
      have := congrArg List.length stripped
      have := (List.rdropWhile_prefix isSpace (t.dropWhile isSpace)).length_le
      have := (List.dropWhile_suffix isSpace (l := t)).length_le
      simp only [strip] at *
      omega
    have front : t.dropWhile isSpace = t :=
      (List.dropWhile_suffix isSpace).eq_of_length whole
    have back : t.rdropWhile isSpace = t := by
      have := stripped
      simp only [Stripped, strip, front] at this
      exact this
    refine ⟨?_, List.rdropWhile_eq_self_iff.mp back h⟩
    have := List.dropWhile_eq_self_iff.mp front (List.length_pos_iff.mpr h)
    simpa only [List.head_eq_getElem] using this
  · intro ends
    by_cases h : t = []
    · subst h
      rfl
    · have front : t.dropWhile isSpace = t := by
        refine List.dropWhile_eq_self_iff.mpr fun pos => ?_
        simpa only [List.head_eq_getElem] using (ends h).1
      have back : t.rdropWhile isSpace = t :=
        List.rdropWhile_eq_self_iff.mpr fun h' => (ends h').2
      simp only [Stripped, strip, front, back]

theorem stripped_append {u : Text} (ht : Stripped t) (hu : Stripped u) (hu' : u ≠ [])
    (ht' : t ≠ []) : Stripped (t ++ u) := by
  refine stripped_iff.mpr fun h => ⟨?_, ?_⟩
  · rw [List.head_append_of_ne_nil ht']
    exact (stripped_iff.mp ht ht').1
  · rw [List.getLast_append_of_ne_nil h hu']
    exact (stripped_iff.mp hu hu').2

/-- The text of a sentence as the splitter emits it. -/
def Sentence (t : Text) : Prop := t ≠ [] ∧ Stripped t

instance (t : Text) : Decidable (Sentence t) := inferInstanceAs (Decidable (_ ∧ _))

theorem stripped_flatten (h : ∀ t ∈ ts, Sentence t) : Stripped ts.flatten := by
  induction ts with
  | nil => exact stripped_nil
  | cons t ts ih =>
      have here := h t (List.mem_cons_self ..)
      have rest := ih fun u hu => h u (List.mem_cons_of_mem t hu)
      by_cases empty : ts.flatten = []
      · simpa only [List.flatten_cons, empty, List.append_nil] using here.2
      · exact stripped_append here.2 rest empty here.1

theorem strip_idem (t : Text) : strip (strip t) = strip t := by
  refine stripped_iff.mpr fun h => ⟨?_, List.rdropWhile_last_not isSpace _ h⟩
  obtain ⟨rest, split⟩ : strip t <+: t.dropWhile isSpace := List.rdropWhile_prefix isSpace _
  have first : (t.dropWhile isSpace).head? = some ((strip t).head h) := by
    rw [← split, List.head?_append_of_ne_nil _ h]
    exact List.head?_eq_some_head h
  have := List.head?_dropWhile_not isSpace t
  rw [first] at this
  exact Bool.eq_false_iff.mp this

theorem length_strip_le (t : Text) : (strip t).length ≤ t.length :=
  (List.rdropWhile_prefix isSpace _).length_le.trans (List.dropWhile_suffix isSpace).length_le

theorem filter_dropWhile {p keep : Char → Bool} (apart : ∀ c, p c = true → keep c = false)
    (t : Text) : (t.dropWhile p).filter keep = t.filter keep := by
  induction t with
  | nil => rfl
  | cons c t ih =>
      rw [List.dropWhile_cons]
      split
      · next dropped => rw [ih, List.filter_cons_of_neg (by simp [apart c dropped])]
      · rfl

/-- Stripping loses no character that is not whitespace. -/
theorem filter_strip {keep : Char → Bool} (apart : ∀ c, isSpace c = true → keep c = false)
    (t : Text) : (strip t).filter keep = t.filter keep := by
  unfold strip List.rdropWhile
  rw [List.filter_reverse, filter_dropWhile apart, List.filter_reverse, List.reverse_reverse,
    filter_dropWhile apart]

theorem joinSpace_singleton (t : Text) : joinSpace [t] = t := by
  simp [joinSpace]

theorem joinSpace_cons (more : ts ≠ []) : joinSpace (t :: ts) = t ++ ' ' :: joinSpace ts := by
  cases ts with
  | nil => exact absurd rfl more
  | cons u us => simp [joinSpace, List.intercalate_cons_cons]

theorem joinSpace_sentence (some : ts ≠ []) (h : ∀ t ∈ ts, Sentence t) :
    Sentence (joinSpace ts) := by
  induction ts with
  | nil => exact absurd rfl some
  | cons t ts ih =>
      have here := h t (List.mem_cons_self ..)
      by_cases last : ts = []
      · subst last
        rwa [joinSpace_singleton]
      · have rest := ih last fun u member => h u (List.mem_cons_of_mem t member)
        rw [joinSpace_cons last]
        refine ⟨by simp, stripped_iff.mpr fun nonempty => ⟨?_, ?_⟩⟩
        · rw [List.head_append_of_ne_nil here.1]
          exact (stripped_iff.mp here.2 here.1).1
        · rw [List.getLast_append_of_ne_nil nonempty (by simp), List.getLast_cons rest.1]
          exact (stripped_iff.mp rest.2 rest.1).2

theorem length_le_joinSpace (h : ∀ t ∈ ts, t ≠ []) : ts.length ≤ (joinSpace ts).length := by
  induction ts with
  | nil => exact Nat.zero_le _
  | cons t ts ih =>
      have here := List.length_pos_iff.mpr (h t (List.mem_cons_self ..))
      by_cases last : ts = []
      · subst last
        rw [joinSpace_singleton]
        exact here
      · have rest := ih fun u member => h u (List.mem_cons_of_mem t member)
        rw [joinSpace_cons last]
        simp only [List.length_cons, List.length_append]
        omega

end Text
end IsalesEngine
