import TraceRecorderTests.Base.Glob

/-!
# The filter patterns

`c_strmatch` decides which tests of a group run. It is the usual wildcard match but
for one thing: after a `*` with something behind it the end of the string is no
place to go on from, so a pattern that ends in `**` asks for one more letter
(`cStrmatch_iff`).
-/

namespace TraceRecorderTests.Cmocka

open Base

/-- The loop of `c_strmatch` after a `*`. -/
def anySuffix (matchRest : List Char → Bool) : List Char → Bool
  | [] => false
  | c :: str => matchRest (c :: str) || anySuffix matchRest str

/-- `c_strmatch`. -/
def cStrmatch : (str pattern : List Char) → Bool
  | str, [] => str.isEmpty
  | str, p :: pattern =>
      if p = '*' then
        if pattern.isEmpty then true else anySuffix (cStrmatch · pattern) str
      else
        match str with
        | [] => false
        | c :: str => if p ≠ '?' ∧ c ≠ p then false else cStrmatch str pattern

/-- What a character of a pattern stands for. -/
def wildOf (p : Char) : Wild Char :=
  if p = '*' then .many else if p = '?' then .one else .letter p

/-- Nothing but stars. -/
def allStars (pattern : List Char) : Bool := pattern.all fun q => q = '*'

theorem allStars_iff {pattern : List Char} : allStars pattern ↔ ∀ q ∈ pattern, q = '*' := by
  simp only [allStars, List.all_eq_true, decide_eq_true_iff]

/-- The stars at the end of a pattern, if there are two or more, ask for at least one
letter. -/
def withoutDoubleStar : List Char → List (Wild Char)
  | [] => []
  | p :: pattern =>
      if p = '*' ∧ pattern ≠ [] ∧ allStars pattern then [.one, .many]
      else wildOf p :: withoutDoubleStar pattern

theorem anySuffix_iff {matchRest : List Char → Bool} {str : List Char} :
    anySuffix matchRest str ↔ ∃ rest, rest ≠ [] ∧ rest <:+ str ∧ matchRest rest := by
  induction str with
  | nil =>
      refine iff_of_false (by simp [anySuffix]) ?_
      rintro ⟨rest, hne, hsuffix, -⟩
      exact hne (List.suffix_nil.mp hsuffix)
  | cons c str ih =>
      rw [anySuffix, Bool.or_eq_true, ih]
      constructor
      · rintro (h | ⟨rest, hne, hsuffix, h⟩)
        · exact ⟨c :: str, by simp, List.suffix_rfl, h⟩
        · exact ⟨rest, hne, hsuffix.trans (List.suffix_cons c str), h⟩
      · rintro ⟨rest, hne, hsuffix, h⟩
        rcases List.suffix_cons_iff.mp hsuffix with rfl | hsuffix
        · exact Or.inl h
        · exact Or.inr ⟨rest, hne, hsuffix, h⟩

/-- Stars match every string that is not empty. -/
theorem cStrmatch_stars : ∀ {pattern str : List Char}, pattern ≠ [] → (∀ q ∈ pattern, q = '*') →
    str ≠ [] → cStrmatch str pattern
  | [], _, hne, _, _ => absurd rfl hne
  | p :: pattern, str, _, hall, hstr => by
      obtain rfl := hall p List.mem_cons_self
      rw [cStrmatch.eq_def]
      simp only [if_true]
      by_cases hrest : pattern = []
      · rw [if_pos (by simp [hrest])]
      · rw [if_neg (by simpa using hrest), anySuffix_iff]
        exact ⟨str, hstr, List.suffix_rfl, cStrmatch_stars hrest
          (fun q hq => hall q (List.mem_cons_of_mem _ hq)) hstr⟩

/-- A pattern that is not just stars does not match the empty string. -/
theorem nil_notMem_withoutDoubleStar : ∀ {pattern : List Char}, (∃ q ∈ pattern, q ≠ '*') →
    [] ∉ globLanguage (withoutDoubleStar pattern)
  | [], h => by simp at h
  | p :: pattern, h => by
      rw [nil_mem_globLanguage_iff, withoutDoubleStar]
      intro hall
      by_cases hp : p = '*'
      · obtain ⟨q, hq, hne⟩ := h
        have hq : q ∈ pattern := (List.mem_cons.mp hq).resolve_left (by rwa [hp])
        have hnot : ¬ (p = '*' ∧ pattern ≠ [] ∧ allStars pattern) :=
          fun hstars => hne (allStars_iff.mp hstars.2.2 q hq)
        rw [if_neg hnot] at hall
        refine nil_notMem_withoutDoubleStar ⟨q, hq, hne⟩ (nil_mem_globLanguage_iff.mpr ?_)
        exact fun w hw => hall w (List.mem_cons_of_mem _ hw)
      · rw [if_neg fun hstars => hp hstars.1] at hall
        have hwild := hall (wildOf p) List.mem_cons_self
        rw [wildOf, if_neg hp] at hwild
        split_ifs at hwild

/-- What `c_strmatch` accepts. -/
theorem cStrmatch_iff : ∀ (pattern str : List Char),
    cStrmatch str pattern ↔ str ∈ globLanguage (withoutDoubleStar pattern)
  | [], str => by simp [cStrmatch, withoutDoubleStar]
  | p :: pattern, str => by
      have ih := cStrmatch_iff pattern
      rw [cStrmatch.eq_def, withoutDoubleStar]
      simp only
      by_cases hp : p = '*'
      · rw [if_pos hp]
        by_cases hrest : pattern = []
        · subst hrest
          have hwild : wildOf p = .many := if_pos hp
          rw [if_pos List.isEmpty_nil, if_neg (by simp), hwild]
          refine iff_of_true rfl (mem_globLanguage_of_many (by simp) ?_ str)
          simp [withoutDoubleStar]
        · rw [if_neg (by simpa using hrest), anySuffix_iff]
          by_cases hstars : ∀ q ∈ pattern, q = '*'
          · rw [if_pos ⟨hp, hrest, allStars_iff.mpr hstars⟩, mem_globLanguage_one]
            constructor
            · rintro ⟨rest, hne, hsuffix, -⟩
              obtain ⟨c, tail, rfl⟩ := List.exists_cons_of_ne_nil fun hnil =>
                hne (List.suffix_nil.mp (hnil ▸ hsuffix))
              exact ⟨c, tail, rfl, mem_globLanguage_of_many (by simp) (by simp) tail⟩
            · rintro ⟨c, tail, rfl, -⟩
              exact ⟨c :: tail, by simp, List.suffix_rfl, cStrmatch_stars hrest hstars (by simp)⟩
          · have hwild : wildOf p = .many := if_pos hp
            rw [if_neg fun h => hstars (allStars_iff.mp h.2.2), hwild, mem_globLanguage_many]
            -- the rest asks for a letter, so the end of the string would not match
            have hnil : [] ∉ globLanguage (withoutDoubleStar pattern) := by
              refine nil_notMem_withoutDoubleStar ?_
              simpa using hstars
            constructor
            · rintro ⟨rest, -, hsuffix, hmatch⟩
              exact ⟨rest, hsuffix, (ih rest).mp hmatch⟩
            · rintro ⟨rest, hsuffix, hmem⟩
              exact ⟨rest, fun h => hnil (h ▸ hmem), hsuffix, (ih rest).mpr hmem⟩
      · rw [if_neg hp, if_neg fun h => hp h.1, wildOf, if_neg hp]
        by_cases hone : p = '?'
        · rw [if_pos hone, mem_globLanguage_one]
          cases str with
          | nil => simp
          | cons c str => simp [hone, ih str]
        · rw [if_neg hone, mem_globLanguage_letter]
          cases str with
          | nil => simp
          | cons c str =>
              by_cases hc : c = p
              · simp [hone, hc, ih str]
              · simp [hone, hc]

/-- The pattern as it is usually read. -/
def glob (pattern : List Char) : Language Char := globLanguage (pattern.map wildOf)

/-- Stars behind a star are two stars at the end. -/
theorem double_star_suffix : ∀ {pattern : List Char}, pattern ≠ [] → (∀ q ∈ pattern, q = '*') →
    ['*', '*'] <:+ '*' :: pattern
  | [], hne, _ => absurd rfl hne
  | [p], _, hall => by
      obtain rfl := hall p List.mem_cons_self
      exact List.suffix_rfl
  | p :: q :: pattern, _, hall => by
      obtain rfl := hall p List.mem_cons_self
      have hrest := double_star_suffix (List.cons_ne_nil q pattern) fun c hc =>
        hall c (List.mem_cons_of_mem _ hc)
      exact hrest.trans (List.suffix_cons '*' _)

theorem withoutDoubleStar_eq : ∀ {pattern : List Char}, ¬ ['*', '*'] <:+ pattern →
    withoutDoubleStar pattern = pattern.map wildOf
  | [], _ => rfl
  | p :: pattern, h => by
      have hstars : ¬ (p = '*' ∧ pattern ≠ [] ∧ allStars pattern) := by
        rintro ⟨rfl, hne, hall⟩
        exact h (double_star_suffix hne (allStars_iff.mp hall))
      rw [withoutDoubleStar, if_neg hstars, List.map_cons,
        withoutDoubleStar_eq fun hsuffix => h (hsuffix.trans (List.suffix_cons p pattern))]

/-- The stars at the end ask for one letter more than they should. -/
theorem lettersAsked_withoutDoubleStar : ∀ {pattern : List Char}, ['*', '*'] <:+ pattern →
    lettersAsked (withoutDoubleStar pattern) = lettersAsked (pattern.map wildOf) + 1
  | [], h => by simp at h
  | p :: pattern, h => by
      rw [withoutDoubleStar]
      split_ifs with hstars
      · have hall : ∀ w ∈ (p :: pattern).map wildOf, ¬ w ≠ .many := by
          intro w hw hne
          obtain ⟨q, hq, rfl⟩ := List.mem_map.mp hw
          rcases List.mem_cons.mp hq with rfl | hq
          · exact hne (if_pos hstars.1)
          · exact hne (if_pos (allStars_iff.mp hstars.2.2 q hq))
        have hzero : lettersAsked ((p :: pattern).map wildOf) = 0 := by
          rw [lettersAsked, List.countP_eq_zero]
          exact fun w hw => by simpa using hall w hw
        rw [hzero]
        rfl
      · have hrest : ['*', '*'] <:+ pattern := by
          rcases List.suffix_cons_iff.mp h with heq | hsuffix
          · obtain ⟨rfl, rfl⟩ := List.cons.inj heq
            exact absurd ⟨rfl, by simp, rfl⟩ hstars
          · exact hsuffix
        have ih := lettersAsked_withoutDoubleStar hrest
        simp only [lettersAsked, List.map_cons, List.countP_cons] at ih ⊢
        omega

/-- `c_strmatch` is the usual wildcard match for the patterns that do not end in two
stars, and for no other. -/
theorem cStrmatch_faithful_iff (pattern : List Char) :
    (∀ str, cStrmatch str pattern ↔ str ∈ glob pattern) ↔ ¬ ['*', '*'] <:+ pattern := by
  constructor
  · intro hall hsuffix
    obtain ⟨w, hw, hlength⟩ := exists_shortest (pattern.map wildOf)
    have hmem := (cStrmatch_iff pattern w).mp ((hall w).mpr hw)
    have hle := lettersAsked_le_length hmem
    rw [lettersAsked_withoutDoubleStar hsuffix] at hle
    omega
  · intro hsuffix str
    rw [cStrmatch_iff, withoutDoubleStar_eq hsuffix]
    rfl

end TraceRecorderTests.Cmocka
