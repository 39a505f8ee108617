import Mathlib.Data.Rat.Defs
import Mathlib.Algebra.Order.Ring.Unbundled.Rat
import Mathlib.Tactic.Linarith
import MasakariHA.Exception
import MasakariHA.Lib.FirstBest
import MasakariHA.Lib.PyString

/-!
# The best content type

`Accept.best_match` of `api/urlmap.py`, for an `Accept` header that was parsed.

* `PyFloat`: what `float` gives;
* `bestMatch`: the two loops;
* `ChoosesBest`: what they should choose, and `choosesBest_iff`: when they do.
-/

namespace MasakariHA.Api

open Lib

/-! ## The loops -/

inductive PyFloat where
  | finite (x : ℚ)
  | infinity
  | minusInfinity
  | nan

namespace PyFloat

def lt : PyFloat → PyFloat → Bool
  | .finite x, .finite y => x < y
  | .minusInfinity, .finite _ | .minusInfinity, .infinity | .finite _, .infinity => true
  | _, _ => false

/-- `nan` is not equal to itself. -/
def eq : PyFloat → PyFloat → Bool
  | .finite x, .finite y => x = y
  | .infinity, .infinity | .minusInfinity, .minusInfinity => true
  | _, _ => false

end PyFloat

/-- The options of a header value; one without `=` has no value. -/
abbrev Params := List (String × Option String)

/-- `_match_mask`. -/
def matchMask (mask contentType : String) : Bool :=
  if '*' ∉ mask.toList then contentType = mask
  else if mask = "*/*" then true
  else contentType.toList.takeWhile (· ≠ '/') = mask.toList.dropLast.dropLast

def stars (mask : String) : Nat := mask.toList.count '*'

/-- The variables of the loops. -/
structure BestMatch where
  bestQuality : PyFloat
  bestContentType : Option String
  bestParams : Params
  bestMatch : String

def BestMatch.start : BestMatch := ⟨.finite (-1), none, [], "*/*"⟩

section Loops

-- `float` of a text, which may raise `ValueError`
variable (float : String → Option PyFloat)

/-- `float(params.get('q', 1))`; `none` is a `ValueError`, which is caught. -/
def quality (params : Params) : Except Exc (Option PyFloat) :=
  match params.lookup "q" with
  | none => .ok (some (.finite 1))
  | some none => .error (.other "TypeError")
  | some (some text) => .ok (float text)

/-- The body of the inner loop. -/
def considerMask (contentType : String) (s : BestMatch) (mask : String × Params) :
    Except Exc BestMatch := do
  match ← quality float mask.2 with
  | none => pure s
  | some q =>
    if q.lt s.bestQuality then pure s
    else if s.bestQuality.eq q ∧ stars s.bestMatch ≤ stars mask.1 then pure s
    else if matchMask mask.1 contentType then pure ⟨q, some contentType, mask.2, mask.1⟩
    else pure s

/-- `best_match`. -/
def bestMatch (contentTypes : List (String × Params)) (supportedContentTypes : List String) :
    Except Exc (Option String × Params) := do
  let s ← supportedContentTypes.foldlM
    (fun s contentType => contentTypes.foldlM (considerMask float contentType) s) BestMatch.start
  pure (s.bestContentType, s.bestParams)

end Loops

/-! ## What should be chosen -/

/-- A supported type with a mask that matches it and has a quality. -/
structure Candidate where
  contentType : String
  mask : String
  params : Params
  quality : ℚ

namespace Candidate

/-- A greater quality, or as great a one with fewer stars in the mask. -/
def better (c c' : Candidate) : Bool :=
  c'.quality < c.quality || c.quality = c'.quality && stars c.mask < stars c'.mask

end Candidate

section Choice

variable (float : String → Option PyFloat) (contentTypes : List (String × Params))
  (supportedContentTypes : List String)

/-- The quality of a mask, if it can be parsed; a missing one is 1. -/
def parsedQuality (params : Params) : Option ℚ :=
  match params.lookup "q" with
  | none => some 1
  | some none => none
  | some (some text) =>
    match float text with
    | some (.finite x) => some x
    | _ => none

def candidate (contentType : String) (mask : String × Params) : Option Candidate :=
  if matchMask mask.1 contentType then
    (parsedQuality float mask.2).map fun q => ⟨contentType, mask.1, mask.2, q⟩
  else none

/-- The supported types in their order, and for each of them the masks in theirs. -/
def candidates : List Candidate :=
  supportedContentTypes.flatMap fun contentType =>
    contentTypes.filterMap (candidate float contentType)

/-- The first of the best candidates is chosen, and no type only if there is none. -/
def ChoosesBest : Prop :=
  ∃ chosen params, bestMatch float contentTypes supportedContentTypes = .ok (chosen, params) ∧
    (chosen = none ↔ candidates float contentTypes supportedContentTypes = []) ∧
    ∀ contentType, chosen = some contentType → ∃ c,
      IsFirstBest Candidate.better (candidates float contentTypes supportedContentTypes) c ∧
        c.contentType = contentType ∧ c.params = params

/-- The qualities that can be parsed are finite and not negative. -/
def FiniteQualities : Prop :=
  ∀ m ∈ contentTypes, ∀ text x, m.2.lookup "q" = some (some text) → float text = some x →
    ∃ q : ℚ, x = .finite q ∧ 0 ≤ q

/-- A quality without a value. -/
def BareQuality (mask : String × Params) : Prop := mask.2.lookup "q" = some none

end Choice

/-! ## The loops choose it -/

section Choosing

variable {float : String → Option PyFloat} {contentTypes : List (String × Params)}
  {supportedContentTypes : List String} {contentType : String} {mask : String × Params}

theorem cotransitive_better : Cotransitive Candidate.better where
  asymm c c' h := by
    unfold Candidate.better at h ⊢
    rw [Bool.or_eq_true, Bool.and_eq_true, decide_eq_true_eq, decide_eq_true_eq,
      decide_eq_true_eq] at h
    rw [Bool.or_eq_false_iff, Bool.and_eq_false_iff, decide_eq_false_iff_not,
      decide_eq_false_iff_not, decide_eq_false_iff_not, not_lt]
    rcases h with hGreater | ⟨hSame, hFewer⟩
    · exact ⟨hGreater.le, Or.inl hGreater.ne⟩
    · exact ⟨hSame.ge, Or.inr (Nat.lt_asymm hFewer)⟩
  cotrans c c' c'' h := by
    unfold Candidate.better at h ⊢
    simp only [Bool.or_eq_true, Bool.and_eq_true, decide_eq_true_eq] at h ⊢
    rcases lt_trichotomy c.quality c'.quality with hLess | hEqual | hGreater
    · right
      rcases h with hGreater | ⟨hSame, -⟩
      · exact Or.inl (hGreater.trans hLess)
      · exact Or.inl (hSame ▸ hLess)
    · rcases h with hGreater | ⟨hSame, hFewer⟩
      · exact Or.inr (Or.inl (hEqual ▸ hGreater))
      · rcases Nat.lt_or_ge (stars c.mask) (stars c'.mask) with hFirst | hLast
        · exact Or.inl (Or.inr ⟨hEqual, hFirst⟩)
        · exact Or.inr (Or.inr ⟨hEqual.symm.trans hSame, hLast.trans_lt hFewer⟩)
    · exact Or.inl (Or.inl hGreater)

/-- The variables while this candidate is the best one. -/
def BestMatch.of : Option Candidate → BestMatch
  | none => .start
  | some c => ⟨.finite c.quality, some c.contentType, c.params, c.mask⟩

/-- What a mask without a bare quality is read as. -/
theorem quality_eq (hFinite : FiniteQualities float contentTypes) (hMask : mask ∈ contentTypes)
    (hBare : ¬ BareQuality mask) :
    quality float mask.2 = .ok ((parsedQuality float mask.2).map .finite) ∧
      ∀ q, parsedQuality float mask.2 = some q → 0 ≤ q := by
  unfold quality parsedQuality
  cases hLookup : mask.2.lookup "q" with
  | none => exact ⟨rfl, fun q hq => by cases hq; exact zero_le_one⟩
  | some value =>
    cases value with
    | none => exact absurd hLookup hBare
    | some text =>
      dsimp only
      cases hFloat : float text with
      | none => exact ⟨rfl, nofun⟩
      | some x =>
        obtain ⟨q, rfl, hq⟩ := hFinite mask hMask text x hLookup hFloat
        refine ⟨rfl, fun q' hq' => ?_⟩
        cases hq'
        exact hq

/-- The two tests before the match skip what is no better than the best candidate. -/
theorem skips_iff (contentType : String) (mask : String × Params) {q : ℚ} (hq : 0 ≤ q)
    (best : Option Candidate) :
    (PyFloat.finite q).lt (BestMatch.of best).bestQuality = true ∨
        (BestMatch.of best).bestQuality.eq (.finite q) = true ∧
          stars (BestMatch.of best).bestMatch ≤ stars mask.1 ↔
      ∃ c, best = some c ∧ Candidate.better ⟨contentType, mask.1, mask.2, q⟩ c = false := by
  cases best with
  | none =>
    -- the quality that the loops start with is below all others
    have hLt : ¬ q < -1 := by linarith
    have hNe : ¬ (-1 : ℚ) = q := by linarith
    simp [BestMatch.of, BestMatch.start, PyFloat.lt, PyFloat.eq, hLt, hNe]
  | some c =>
    simp only [BestMatch.of, PyFloat.lt, PyFloat.eq, Candidate.better, decide_eq_true_eq,
      Option.some.injEq, exists_eq_left', Bool.or_eq_false_iff, Bool.and_eq_false_iff,
      decide_eq_false_iff_not, not_lt]
    constructor
    · rintro (hLess | ⟨hSame, hStars⟩)
      · exact ⟨hLess.le, Or.inl hLess.ne⟩
      · exact ⟨hSame.ge, Or.inr hStars⟩
    · rintro ⟨hLe, hNe | hStars⟩
      · exact Or.inl (lt_of_le_of_ne hLe hNe)
      · rcases hLe.lt_or_eq with hLess | hSame
        · exact Or.inl hLess
        · exact Or.inr ⟨hSame.symm, hStars⟩

theorem considerMask_eq (hFinite : FiniteQualities float contentTypes)
    (hMask : mask ∈ contentTypes) (hBare : ¬ BareQuality mask) (best : Option Candidate) :
    considerMask float contentType (.of best) mask =
      .ok (.of ((candidate float contentType mask).toList.foldl (keepBest Candidate.better)
        best)) := by
  obtain ⟨hQuality, hNonneg⟩ := quality_eq hFinite hMask hBare
  unfold considerMask candidate
  rw [hQuality]
  cases hParsed : parsedQuality float mask.2 with
  | none => split <;> rfl
  | some q =>
    have hSkips := skips_iff contentType mask (hNonneg q hParsed) best
    simp only [bind, Except.bind, Option.map_some]
    rw [← ite_or]
    by_cases hMatch : matchMask mask.1 contentType = true
    · simp only [if_pos hMatch, Option.toList_some, List.foldl_cons, List.foldl_nil]
      split
      · rename_i hSkip
        obtain ⟨c, rfl, hWorse⟩ := hSkips.mp hSkip
        rw [keepBest, if_neg (by rw [hWorse]; exact Bool.false_ne_true)]
        rfl
      · rename_i hTaken
        cases best with
        | none => rfl
        | some c =>
          have hBetter := mt (fun h => hSkips.mpr ⟨c, rfl, h⟩) hTaken
          rw [keepBest, if_pos (Bool.eq_true_of_not_eq_false hBetter)]
          rfl
    · simp only [if_neg hMatch, Option.toList_none, List.foldl_nil, ite_self]
      rfl

theorem foldlM_considerMask (hFinite : FiniteQualities float contentTypes)
    (hBare : ∀ m ∈ contentTypes, ¬ BareQuality m) (contentType : String)
    {masks : List (String × Params)} (hMasks : masks ⊆ contentTypes) (best : Option Candidate) :
    masks.foldlM (considerMask float contentType) (.of best) =
      .ok (.of ((masks.filterMap (candidate float contentType)).foldl
        (keepBest Candidate.better) best)) := by
  induction masks generalizing best with
  | nil => rfl
  | cons mask masks ih =>
    obtain ⟨hMask, hRest⟩ := List.cons_subset.mp hMasks
    have hCons : (mask :: masks).filterMap (candidate float contentType) =
        (candidate float contentType mask).toList ++
          masks.filterMap (candidate float contentType) := by
      rw [List.filterMap_cons]
      cases candidate float contentType mask <;> rfl
    rw [List.foldlM_cons, considerMask_eq hFinite hMask (hBare mask hMask), hCons,
      List.foldl_append]
    exact ih hRest _

/-- Without bare qualities the loops keep the best of the candidates. -/
theorem bestMatch_eq (hFinite : FiniteQualities float contentTypes)
    (hBare : ∀ m ∈ contentTypes, ¬ BareQuality m) :
    bestMatch float contentTypes supportedContentTypes =
      let s := BestMatch.of (firstBest Candidate.better
        (candidates float contentTypes supportedContentTypes))
      .ok (s.bestContentType, s.bestParams) := by
  have hOuter : ∀ (supported : List String) (best : Option Candidate),
      supported.foldlM (fun s contentType =>
          contentTypes.foldlM (considerMask float contentType) s) (.of best) =
        .ok (.of ((candidates float contentTypes supported).foldl
          (keepBest Candidate.better) best)) := by
    intro supported
    induction supported with
    | nil => exact fun _ => rfl
    | cons contentType supported ih =>
      intro best
      rw [List.foldlM_cons, foldlM_considerMask hFinite hBare contentType (List.Subset.refl _)]
      rw [candidates, List.flatMap_cons, List.foldl_append]
      exact ih _
  have hAll := hOuter supportedContentTypes none
  rw [bestMatch]
  exact congrArg (· >>= fun s : BestMatch => pure (s.bestContentType, s.bestParams)) hAll

/-- A bare quality is not caught, whatever stands before it. -/
theorem foldlM_bare (float : String → Option PyFloat) (contentType : String)
    {masks : List (String × Params)} (hMask : mask ∈ masks) (hBare : BareQuality mask)
    (s : BestMatch) :
    ∃ e, masks.foldlM (considerMask float contentType) s = .error e := by
  induction masks generalizing s with
  | nil => cases hMask
  | cons m masks ih =>
    rw [List.foldlM_cons]
    cases hStep : considerMask float contentType s m with
    | error e => exact ⟨e, rfl⟩
    | ok s' =>
      rcases List.mem_cons.mp hMask with rfl | hLater
      · unfold considerMask quality at hStep
        rw [hBare] at hStep
        cases hStep
      · exact ih hLater s'

/-- The loops choose the first of the best candidates exactly if they do not begin, or no quality is
bare. -/
theorem choosesBest_iff (float : String → Option PyFloat) (contentTypes : List (String × Params))
    (supportedContentTypes : List String) (hFinite : FiniteQualities float contentTypes) :
    ChoosesBest float contentTypes supportedContentTypes ↔
      supportedContentTypes = [] ∨ ∀ m ∈ contentTypes, ¬ BareQuality m := by
  constructor
  · rintro ⟨chosen, params, hRun, -⟩
    cases supportedContentTypes with
    | nil => exact Or.inl rfl
    | cons contentType supported =>
      refine Or.inr fun m hm hBare => ?_
      obtain ⟨e, hError⟩ := foldlM_bare float contentType hm hBare BestMatch.start
      rw [bestMatch, List.foldlM_cons, hError] at hRun
      cases hRun
  · intro h
    have hRun : bestMatch float contentTypes supportedContentTypes =
        let s := BestMatch.of (firstBest Candidate.better
          (candidates float contentTypes supportedContentTypes))
        .ok (s.bestContentType, s.bestParams) := by
      rcases h with rfl | hBare
      · rfl
      · exact bestMatch_eq hFinite hBare
    refine ⟨_, _, hRun, ?_⟩
    have hBest := firstBest_spec cotransitive_better
      (candidates float contentTypes supportedContentTypes)
    cases hFirst : firstBest Candidate.better
        (candidates float contentTypes supportedContentTypes) with
    | none =>
      rw [hFirst] at hBest
      exact ⟨iff_of_true rfl hBest, nofun⟩
    | some c =>
      rw [hFirst] at hBest
      refine ⟨iff_of_false nofun fun hNil => ?_, fun contentType hc => ?_⟩
      · obtain ⟨before, after, hSplit, -⟩ := hBest
        rw [hNil] at hSplit
        simp at hSplit
      · exact ⟨c, hBest, Option.some.inj hc, rfl⟩

end Choosing

/-! ## A quality without a value -/

/-- `float` of two texts. -/
def someFloat (text : String) : Option PyFloat :=
  if text = "0.5" then some (.finite (1 / 2)) else if text = "1" then some (.finite 1) else none

/-- `*/*;q=0.5, application/json`. -/
def anyOrJson : List (String × Params) :=
  [("*/*", [("q", some "0.5")]), ("application/json", [])]

theorem choosesBest_iff_anyOrJson :
    ChoosesBest someFloat anyOrJson ["application/xml", "application/json"] := by
  have hFinite : FiniteQualities someFloat anyOrJson := by
    intro m hm text x hLookup hFloat
    simp only [anyOrJson, List.mem_cons, List.not_mem_nil, or_false] at hm
    rcases hm with rfl | rfl
    · cases hLookup
      exact ⟨1 / 2, (Option.some.inj hFloat).symm, by norm_num⟩
    · cases hLookup
  refine (choosesBest_iff someFloat anyOrJson _ hFinite).mpr (Or.inr ?_)
  unfold BareQuality
  decide

/-- Whatever is supported and accepted, the loops choose the first of the best candidates. -/
def AlwaysChoosesBest (float : String → Option PyFloat) : Prop :=
  ∀ contentTypes supportedContentTypes, FiniteQualities float contentTypes →
    ChoosesBest float contentTypes supportedContentTypes

/-- `application/json;q` raises an exception. -/
theorem not_alwaysChoosesBest : ¬ AlwaysChoosesBest someFloat := by
  intro h
  have hFinite : FiniteQualities someFloat [("application/json", [("q", none)])] := by
    intro m hm text x hLookup
    rw [List.mem_singleton] at hm
    subst hm
    cases hLookup
  obtain ⟨chosen, params, hRun, -⟩ := h _ ["application/json"] hFinite
  cases hRun

end MasakariHA.Api
