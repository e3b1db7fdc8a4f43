import RadarFeed.Text.Blank

/-!
Cutting text at its ends, at blanks and at separators.

What `trim` leaves is said by `IsTrimmed` (`trimmed_eq_iff`), and the pieces that `words` finds by
`IsWords` (`words_eq_iff`). Neither relation mentions how the pieces are found. The pieces between
separators are those of the texts on both sides of one (`splitAt_append`).
-/

namespace RadarFeed.Text

/-! ## Ends -/

section

variable {α : Type} {p : α → Bool} {s t front back : List α}

/-- `t` is what is left of `s` when everything that `p` accepts is cut off at both ends. -/
structure IsTrimmed (p : α → Bool) (s t : List α) : Prop where
  cut : ∃ front back, s = front ++ t ++ back ∧ (∀ c ∈ front, p c = true) ∧ ∀ c ∈ back, p c = true
  head : ∀ c ∈ t.head?, p c = false
  last : ∀ c ∈ t.getLast?, p c = false

theorem dropWhile_eq_self (h : ∀ c ∈ s.head?, p c = false) : s.dropWhile p = s := by
  cases s with
  | nil => rfl
  | cons c s => exact List.dropWhile_cons_of_neg (by simp [h c rfl])

theorem head_dropWhile (p : α → Bool) (s : List α) :
    ∀ c ∈ (s.dropWhile p).head?, p c = false := by
  intro c hc
  have h := List.head?_dropWhile_not p s
  rw [hc] at h
  exact h

theorem isTrimmed_dropWhile (p : α → Bool) (s : List α) :
    IsTrimmed p s ((s.dropWhile p).reverse.dropWhile p).reverse := by
  have hall : ∀ u : List α, ∀ c ∈ u.takeWhile p, p c = true := fun _ =>
    List.all_eq_true.1 List.all_takeWhile
  have hs : s.takeWhile p ++ s.dropWhile p = s := List.takeWhile_append_dropWhile
  have hr := congrArg List.reverse
    (List.takeWhile_append_dropWhile : (s.dropWhile p).reverse.takeWhile p ++ _ = _)
  rw [List.reverse_append, List.reverse_reverse] at hr
  generalize ht : ((s.dropWhile p).reverse.dropWhile p).reverse = t at hr ⊢
  refine ⟨⟨s.takeWhile p, ((s.dropWhile p).reverse.takeWhile p).reverse, ?_, hall s, ?_⟩,
    ?_, ?_⟩
  · rw [List.append_assoc, hr, hs]
  · intro c hc
    exact hall _ c (List.mem_reverse.1 hc)
  · -- the head of what is left is the head of what was left at the front
    intro c hc
    refine head_dropWhile p s c ?_
    rw [← hr, List.head?_append, Option.mem_def.1 hc]
    rfl
  · intro c hc
    rw [← ht, List.getLast?_reverse] at hc
    exact head_dropWhile p _ c hc

theorem IsTrimmed.eq (h : IsTrimmed p s t) : ((s.dropWhile p).reverse.dropWhile p).reverse = t := by
  obtain ⟨⟨front, back, rfl, hfront, hback⟩, hhead, hlast⟩ := h
  have hback' : ∀ c ∈ back.reverse, p c = true := fun c hc => hback c (List.mem_reverse.1 hc)
  have hfront' : (front ++ t ++ back).dropWhile p = (t ++ back).dropWhile p := by
    rw [List.append_assoc, List.dropWhile_append_of_pos hfront]
  rw [hfront']
  cases t with
  | nil =>
    have hnil : back.dropWhile p = [] := by
      rw [← List.append_nil back, List.dropWhile_append_of_pos hback]
      rfl
    rw [List.nil_append, hnil]
    rfl
  | cons c t =>
    have hrev : ∀ d ∈ (c :: t).reverse.head?, p d = false := by
      rw [List.head?_reverse]
      exact hlast
    have hkept : (c :: t ++ back).dropWhile p = c :: t ++ back := dropWhile_eq_self hhead
    rw [hkept, List.reverse_append, List.dropWhile_append_of_pos hback', dropWhile_eq_self hrev,
      List.reverse_reverse]

theorem trimmed_eq_iff :
    ((s.dropWhile p).reverse.dropWhile p).reverse = t ↔ IsTrimmed p s t :=
  ⟨fun h => h ▸ isTrimmed_dropWhile p s, IsTrimmed.eq⟩

end

theorem trim_eq_iff {p : Char → Bool} {s t : List Char} : trim p s = t ↔ IsTrimmed p s t :=
  trimmed_eq_iff

/-! ## Words -/

/-- `ws` are the words of `s`: the pieces without blanks, as long as can be, in their order. -/
inductive IsWords : List Char → List (List Char) → Prop where
  | nil {s} : (∀ c ∈ s, isBlank c = true) → IsWords s []
  | cons {gap w rest ws} : (∀ c ∈ gap, isBlank c = true) → w ≠ [] → (∀ c ∈ w, isBlank c = false) →
      (∀ c ∈ rest.head?, isBlank c = true) → IsWords rest ws → IsWords (gap ++ w ++ rest) (w :: ws)

variable {s gap w word : List Char} {ws : List (List Char)} {c : Char}

theorem IsWords.blank_cons (hc : isBlank c = true) (h : IsWords s ws) : IsWords (c :: s) ws := by
  have blanks : ∀ u : List Char, (∀ d ∈ u, isBlank d = true) → ∀ d ∈ c :: u, isBlank d = true := by
    intro u hu d hd
    rcases List.mem_cons.1 hd with rfl | hd
    · exact hc
    · exact hu d hd
  cases h with
  | nil hs => exact .nil (blanks s hs)
  | @cons gap w rest ws hgap hne hw hrest h =>
    exact @IsWords.cons (c :: gap) w rest ws (blanks gap hgap) hne hw hrest h

/-- The words of what has been read of a word and what follows it. -/
theorem isWords_wordsAfter (s : List Char) (hword : ∀ c ∈ word, isBlank c = false) :
    IsWords (word.reverse ++ s) (wordsAfter word s) := by
  have begun : ∀ (rest : List Char) (word : List Char) ws, word ≠ [] →
      (∀ c ∈ word, isBlank c = false) → (∀ c ∈ rest.head?, isBlank c = true) → IsWords rest ws →
      IsWords (word.reverse ++ rest) (word.reverse :: ws) := by
    intro rest word ws hne hword hrest h
    exact @IsWords.cons [] word.reverse rest ws (by simp) (by simpa using hne)
      (fun c hc => hword c (List.mem_reverse.1 hc)) hrest h
  induction s generalizing word with
  | nil =>
    unfold wordsAfter
    by_cases hne : word = []
    · subst hne
      exact .nil (by simp)
    · rw [if_neg (by simpa using hne)]
      exact begun [] word [] hne hword (by simp) (.nil (by simp))
  | cons c s ih =>
    have hempty : IsWords s (wordsAfter [] s) := @ih [] (by simp)
    unfold wordsAfter
    by_cases hc : isBlank c = true
    · rw [if_pos hc]
      by_cases hne : word = []
      · subst hne
        exact hempty.blank_cons hc
      · rw [if_neg (by simpa using hne)]
        exact begun (c :: s) word _ hne hword (by simpa using hc) (hempty.blank_cons hc)
    · -- the word goes on
      rw [if_neg hc]
      have hgo := @ih (c :: word) fun d hd => by
        rcases List.mem_cons.1 hd with rfl | hd
        · simpa using hc
        · exact hword d hd
      simpa using hgo

theorem wordsAfter_word (hw : ∀ c ∈ w, isBlank c = false) :
    wordsAfter word (w ++ s) = wordsAfter (w.reverse ++ word) s := by
  induction w generalizing word with
  | nil => rfl
  | cons c w ih =>
    have hc : isBlank c = false := hw c List.mem_cons_self
    rw [List.cons_append, wordsAfter, hc]
    simp [ih fun d hd => hw d (List.mem_cons_of_mem _ hd)]

theorem words_gap (hgap : ∀ c ∈ gap, isBlank c = true) : words (gap ++ s) = words s := by
  induction gap with
  | nil => rfl
  | cons c gap ih =>
    have hc : isBlank c = true := hgap c List.mem_cons_self
    rw [List.cons_append, ← ih fun d hd => hgap d (List.mem_cons_of_mem _ hd)]
    simp [words, wordsAfter, hc]

theorem IsWords.eq (h : IsWords s ws) : words s = ws := by
  induction h with
  | @nil s hs =>
    have h := words_gap (s := []) hs
    rwa [List.append_nil] at h
  | @cons gap w rest ws hgap hne hw hrest _ ih =>
    rw [List.append_assoc, words_gap hgap, words, wordsAfter_word hw, List.append_nil, ← ih]
    cases rest with
    | nil => simp [wordsAfter, words, hne]
    | cons c rest =>
      have hc : isBlank c = true := hrest c rfl
      simp [wordsAfter, words, hne, hc]

theorem words_eq_iff : words s = ws ↔ IsWords s ws := by
  constructor
  · rintro rfl
    exact @isWords_wordsAfter [] s (by simp)
  · exact IsWords.eq

/-! ## Separators -/

section

variable {separator : Char} {piece t : List Char}

theorem splitAt_cons_of_ne (h : c ≠ separator) : ∃ piece rest,
    splitAt separator s = piece :: rest ∧ splitAt separator (c :: s) = (c :: piece) :: rest := by
  obtain ⟨piece, rest, hs⟩ := List.exists_cons_of_ne_nil (splitAt_ne_nil separator s)
  exact ⟨piece, rest, hs, by simp [splitAt, hs, h]⟩

theorem splitAt_cons_self (separator : Char) (s : List Char) :
    splitAt separator (separator :: s) = [] :: splitAt separator s := by
  obtain ⟨piece, rest, hs⟩ := List.exists_cons_of_ne_nil (splitAt_ne_nil separator s)
  simp [splitAt, hs]

theorem splitAt_of_not_mem (h : separator ∉ s) : splitAt separator s = [s] := by
  induction s with
  | nil => rfl
  | cons c s ih =>
    simp only [List.mem_cons, not_or] at h
    have hs := ih h.2
    simp [splitAt, hs, Ne.symm h.1]

/-- The pieces of two texts with a separator between them. -/
theorem splitAt_append (s t : List Char) :
    splitAt separator (s ++ separator :: t) = splitAt separator s ++ splitAt separator t := by
  induction s with
  | nil =>
    rw [List.nil_append, splitAt_cons_self]
    rfl
  | cons c s ih =>
    by_cases hc : c = separator
    · subst hc
      rw [List.cons_append, splitAt_cons_self, splitAt_cons_self, ih, List.cons_append]
    · obtain ⟨piece, rest, hs, hcs⟩ := splitAt_cons_of_ne (s := s) hc
      obtain ⟨piece', rest', hst, hcst⟩ := splitAt_cons_of_ne (s := s ++ separator :: t) hc
      rw [ih, hs, List.cons_append] at hst
      cases hst
      rw [List.cons_append, hcst, hcs, List.cons_append]

/-- The pieces of texts that are joined by the separator are those of each text. -/
theorem splitAt_intercalate {texts : List (List Char)} (h : texts ≠ []) :
    splitAt separator ([separator].intercalate texts) = texts.flatMap (splitAt separator) := by
  induction texts with
  | nil => exact (h rfl).elim
  | cons s texts ih =>
    cases texts with
    | nil => simp
    | cons t texts =>
      rw [List.intercalate_cons_cons, List.append_assoc, List.singleton_append, splitAt_append,
        ih (List.cons_ne_nil t texts)]
      rfl

/-- The pieces of a text in which no character becomes a separator, and no separator another one. -/
theorem splitAt_map {f : Char → Char} (h : ∀ c, f c = separator ↔ c = separator) (s : List Char) :
    splitAt separator (s.map f) = (splitAt separator s).map (List.map f) := by
  induction s with
  | nil => rfl
  | cons c s ih =>
    by_cases hc : c = separator
    · rw [List.map_cons, (h c).2 hc, hc, splitAt_cons_self, splitAt_cons_self, ih]
      rfl
    · obtain ⟨piece, rest, hs, hcs⟩ := splitAt_cons_of_ne (s := s) hc
      obtain ⟨piece', rest', hs', hcs'⟩ := splitAt_cons_of_ne (s := s.map f) (mt (h c).1 hc)
      rw [ih, hs, List.map_cons] at hs'
      cases hs'
      rw [List.map_cons, hcs', hcs]
      rfl

/-- A piece has no separator in it, and only characters of the text. -/
theorem of_mem_splitAt (h : piece ∈ splitAt separator s) : separator ∉ piece ∧ piece ⊆ s := by
  induction s generalizing piece with
  | nil =>
    obtain rfl : piece = [] := by simpa [splitAt] using h
    simp
  | cons c s ih =>
    by_cases hc : c = separator
    · subst hc
      rw [splitAt_cons_self] at h
      rcases List.mem_cons.1 h with rfl | h
      · simp
      · exact ⟨(ih h).1, List.subset_cons_of_subset _ (ih h).2⟩
    · obtain ⟨first, rest, hs, hcs⟩ := splitAt_cons_of_ne (s := s) hc
      rw [hcs] at h
      rcases List.mem_cons.1 h with rfl | h
      · have hmem : first ∈ splitAt separator s := by
          rw [hs]
          exact List.mem_cons_self
        have hfirst := ih hmem
        refine ⟨?_, List.cons_subset_cons c hfirst.2⟩
        simp only [List.mem_cons, not_or]
        exact ⟨Ne.symm hc, hfirst.1⟩
      · have hmem : piece ∈ splitAt separator s := by
          rw [hs]
          exact List.mem_cons_of_mem _ h
        have hlater := ih hmem
        exact ⟨hlater.1, List.subset_cons_of_subset _ hlater.2⟩

end

end RadarFeed.Text
