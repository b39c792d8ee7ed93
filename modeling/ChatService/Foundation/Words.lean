import Mathlib.Data.List.DropRight

/-!
# Words and trimming

A text over any alphabet, with some of its letters counted as blank: its words, in order, and what is left
of it behind the first words.  `trim` takes away letters at both ends; when it takes away blanks only, the
words stay the same, and behind the words only the end of the text changes.
-/

namespace Words

/-- Texts are compared character by character. -/
instance lawfulBEqText : LawfulBEq (List Char) := List.instLawfulBEq

variable {α : Type*} (p q : α → Bool)

/-- The words: the pieces between blanks that are not empty. -/
def words (text : List α) : List (List α) := (text.splitOnP p).filter fun piece => !piece.isEmpty

/-- The first word, empty if there is none. -/
def firstWord (text : List α) : List α := (text.dropWhile p).takeWhile (!p ·)

/-- What is left behind the first word. -/
def afterWord (text : List α) : List α := (text.dropWhile p).dropWhile (!p ·)

def trim (text : List α) : List α := (text.dropWhile q).rdropWhile q

variable {p q} {text : List α}

theorem words_cons_blank {a : α} (h : p a = true) (text : List α) : words p (a :: text) = words p text := by
  rw [words, List.splitOnP_cons_eq_if_modifyHead, if_pos h]
  rfl

/-- Blanks in front do not matter. -/
theorem words_dropWhile (text : List α) : words p (text.dropWhile p) = words p text := by
  induction text with
  | nil => rfl
  | cons a text ih =>
    by_cases ha : p a = true
    · rw [List.dropWhile_cons_of_pos ha, ih, words_cons_blank ha]
    · rw [List.dropWhile_cons_of_neg ha]

/-- A blank parts the words on both sides. -/
theorem words_append_blank {a : α} (h : p a = true) (xs ys : List α) :
    words p (xs ++ a :: ys) = words p xs ++ words p ys := by
  rw [words, List.splitOnP_append_cons _ _ h, List.filter_append]
  rfl

theorem words_nil : words p ([] : List α) = [] := rfl

/-- Blanks at the end do not matter. -/
theorem words_append_blanks {blanks : List α} (h : ∀ a ∈ blanks, p a = true) (text : List α) :
    words p (text ++ blanks) = words p text := by
  induction blanks generalizing text with
  | nil => rw [List.append_nil]
  | cons a blanks ih =>
    obtain ⟨ha, hblanks⟩ := List.forall_mem_cons.mp h
    have hempty := ih hblanks []
    rw [List.nil_append, words_nil] at hempty
    rw [words_append_blank ha, hempty, List.append_nil]

theorem words_eq_nil (h : text.dropWhile p = []) : words p text = [] := by
  rw [← words_dropWhile, h, words_nil]

/-- The words one by one. -/
theorem words_eq_cons (h : text.dropWhile p ≠ []) :
    words p text = firstWord p text :: words p (afterWord p text) := by
  have hsplit : firstWord p text ++ afterWord p text = text.dropWhile p := List.takeWhile_append_dropWhile
  have hword : ∀ a ∈ firstWord p text, p a = false := by
    intro a ha
    simpa using List.mem_takeWhile_imp ha
  have hne : firstWord p text ≠ [] := by
    obtain ⟨a, rest, heq⟩ := List.exists_cons_of_ne_nil h
    have ha : p a = false := by
      have hhead := List.head?_dropWhile_not p text
      rwa [heq] at hhead
    rw [firstWord, heq, List.takeWhile_cons_of_pos (by rw [ha]; rfl)]
    exact List.cons_ne_nil a _
  have hsingle : words p (firstWord p text) = [firstWord p text] := by
    rw [words, List.splitOnP_eq_singleton hword]
    simp [hne]
  rw [← words_dropWhile, ← hsplit]
  cases hafter : afterWord p text with
  | nil => rw [List.append_nil, hsingle, words_nil]
  | cons b rest =>
    -- the word ends at a blank
    have hb := List.head?_dropWhile_not (!p ·) (text.dropWhile p)
    rw [show (text.dropWhile p).dropWhile (!p ·) = b :: rest from hafter] at hb
    have hblank : p b = true := by simpa using hb
    rw [words_append_blank hblank, hsingle, words_cons_blank hblank]
    rfl

/-! ### Trimming -/

/-- What is trimmed stands at the ends. -/
theorem dropWhile_eq_trim_append (text : List α) :
    ∃ back, (∀ a ∈ back, q a = true) ∧ text.dropWhile q = trim q text ++ back :=
  ⟨_, fun _ ha => List.mem_rtakeWhile_imp ha, List.rdropWhile_append_rtakeWhile.symm⟩

theorem dropWhile_dropWhile (hq : ∀ a, q a = true → p a = true) (text : List α) :
    (text.dropWhile q).dropWhile p = text.dropWhile p := by
  induction text with
  | nil => rfl
  | cons a text ih =>
    by_cases ha : q a = true
    · rw [List.dropWhile_cons_of_pos ha, ih, List.dropWhile_cons_of_pos (hq a ha)]
    · rw [List.dropWhile_cons_of_neg ha]

/-- Trimming blanks keeps the words. -/
theorem words_trim (hq : ∀ a, q a = true → p a = true) (text : List α) :
    words p (trim q text) = words p text := by
  obtain ⟨back, hback, hsplit⟩ := dropWhile_eq_trim_append (q := q) text
  rw [← words_append_blanks (fun a ha => hq a (hback a ha)) (trim q text), ← hsplit, ← words_dropWhile,
    dropWhile_dropWhile hq, words_dropWhile]

/-- What would be trimmed may be added at the end. -/
theorem trim_append {back : List α} (hback : ∀ a ∈ back, q a = true) (text : List α) :
    trim q (text ++ back) = trim q text := by
  have hdrop : back.dropWhile q = [] := List.dropWhile_eq_nil_iff.mpr hback
  have hright : ∀ xs : List α, (xs ++ back).rdropWhile q = xs.rdropWhile q := by
    intro xs
    have hreverse : (back.reverse.dropWhile q).isEmpty = true := by
      rw [List.isEmpty_iff, List.dropWhile_eq_nil_iff]
      exact fun a ha => hback a (List.mem_reverse.mp ha)
    rw [List.rdropWhile, List.rdropWhile, List.reverse_append, List.dropWhile_append, if_pos hreverse]
  rw [trim, trim, List.dropWhile_append]
  split_ifs with hempty
  · rw [hdrop, List.isEmpty_iff.mp hempty]
  · exact hright _

/-- Blanks at the end are left behind the first word. -/
theorem afterWord_append {back : List α} (hback : ∀ a ∈ back, p a = true) (h : text.dropWhile p ≠ []) :
    afterWord p (text ++ back) = afterWord p text ++ back := by
  have hstays : back.dropWhile (!p ·) = back := by
    cases back with
    | nil => rfl
    | cons a back =>
      have ha := hback a List.mem_cons_self
      rw [List.dropWhile_cons_of_neg (by simp [ha])]
  rw [afterWord, afterWord, List.dropWhile_append, if_neg (by simpa using h), List.dropWhile_append]
  split_ifs with hempty
  · rw [hstays, List.isEmpty_iff.mp hempty, List.nil_append]
  · rfl

/-- There is nothing to trim where there are no blanks. -/
theorem trim_eq_self (h : ∀ a ∈ text, q a = false) : trim q text = text := by
  have hkept : ∀ xs : List α, (∀ a ∈ xs, q a = false) → xs.dropWhile q = xs := by
    intro xs hxs
    cases xs with
    | nil => rfl
    | cons a xs => rw [List.dropWhile_cons_of_neg (by simp [hxs a List.mem_cons_self])]
  have hreverse : ∀ a ∈ text.reverse, q a = false := by
    intro a ha
    exact h a (List.mem_reverse.mp ha)
  rw [trim, hkept text h, List.rdropWhile, hkept _ hreverse, List.reverse_reverse]

theorem mem_of_mem_trim {a : α} (h : a ∈ trim q text) : a ∈ text :=
  (List.dropWhile_sublist q).mem ((List.rdropWhile_prefix q _).mem h)

/-- What is trimmed away does not end the text. -/
theorem getLast?_trim {a : α} (h : (trim q text).getLast? = some a) : q a = false := by
  have hne : trim q text ≠ [] := by
    intro hnil
    rw [hnil] at h
    exact absurd h (by simp)
  rw [List.getLast?_eq_some_getLast hne] at h
  have hlast := List.rdropWhile_last_not q (text.dropWhile q) hne
  rw [← Option.some.inj h]
  exact Bool.eq_false_iff.mpr hlast

/-- What is not trimmed away stays. -/
theorem trim_ne_nil {a : α} (hmem : a ∈ text) (ha : q a = false) : trim q text ≠ [] := by
  intro hnil
  obtain ⟨back, hback, hsplit⟩ := dropWhile_eq_trim_append (q := q) text
  rw [hnil, List.nil_append] at hsplit
  rw [← List.takeWhile_append_dropWhile (p := q) (l := text), hsplit] at hmem
  rcases List.mem_append.mp hmem with hmem | hmem
  · exact absurd (List.mem_takeWhile_imp hmem) (by simp [ha])
  · exact absurd (hback a hmem) (by simp [ha])

/-- Behind the first two words, trimming the whole text or what is left of it is the same. -/
theorem trim_afterWord_trim (hq : ∀ a, q a = true → p a = true)
    (h : (trim q text).dropWhile p ≠ []) (h' : (afterWord p (trim q text)).dropWhile p ≠ []) :
    trim q (afterWord p (afterWord p (trim q text))) = trim q (afterWord p (afterWord p text)) := by
  obtain ⟨back, hback, hsplit⟩ := dropWhile_eq_trim_append (q := q) text
  have hblank : ∀ a ∈ back, p a = true := fun a ha => hq a (hback a ha)
  have hfirst : afterWord p text = afterWord p (trim q text) ++ back := by
    rw [← afterWord_append hblank h, ← hsplit, afterWord, afterWord, dropWhile_dropWhile hq]
  rw [hfirst, afterWord_append hblank h', trim_append hback]

end Words
