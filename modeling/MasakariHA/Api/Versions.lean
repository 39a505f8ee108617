import Mathlib.Data.Prod.Lex
import MasakariHA.Exception
import MasakariHA.Lib.StableSort

/-!
# Versions of the API methods

`APIVersionRequest` of `api/api_version_request.py`, and the decorator `api_version` of
`api/openstack/wsgi.py` with the check that no two versions of a method intersect.

* `versionMatches`: a requested version against a method's bounds;
* `checkForVersionsIntersection`: the sweep over the sorted bounds;
* `apiVersion`, `decorate`: one decoration of a method, and a sequence of them;
* `Outnumbered`: what the sweep goes by, in terms of the methods;
* `checksIntersection_iff`: when it tells whether two versions intersect;
* `checksIntersection_limited`, `unambiguous_limited`: the same on the bounds of two methods.
-/

namespace MasakariHA.Api

open Lib

/-! ## Versions -/

structure APIVersionRequest where
  verMajor : Nat
  verMinor : Nat

namespace APIVersionRequest

/-- The version of a missing string. -/
def null : APIVersionRequest := ⟨0, 0⟩

def pair (v : APIVersionRequest) : Lex (Nat × Nat) := toLex (v.verMajor, v.verMinor)

theorem pair_injective : Function.Injective pair := by
  rintro ⟨major, minor⟩ ⟨major', minor'⟩ h
  obtain ⟨rfl, rfl⟩ := Prod.mk.inj (toLex_inj.mp h)
  rfl

/-- Versions are compared as pairs. -/
instance : LinearOrder APIVersionRequest := LinearOrder.lift' pair pair_injective

def isNull (v : APIVersionRequest) : Bool := v.verMajor = 0 && v.verMinor = 0

/-- `matches`; a null version has none to compare. -/
def versionMatches (v minVersion maxVersion : APIVersionRequest) : Except Exc Bool :=
  if v.isNull then .error (.other "ValueError")
  else if maxVersion.isNull && minVersion.isNull then .ok true
  else if maxVersion.isNull then .ok (minVersion ≤ v)
  else if minVersion.isNull then .ok (v ≤ maxVersion)
  else .ok (minVersion ≤ v && v ≤ maxVersion)

end APIVersionRequest

/-- A `VersionedMethod` with its bounds; the decorator parses the lower one, which is not null
then. -/
structure VersionedMethod where
  startVersion : APIVersionRequest
  endVersion : APIVersionRequest
  startNotNull : startVersion.isNull = false

namespace VersionedMethod

def isMatched (v : APIVersionRequest) (f : VersionedMethod) : Bool :=
  match v.versionMatches f.startVersion f.endVersion with
  | .ok b => b
  | .error _ => false

end VersionedMethod

/-! ## The decorator -/

/-- The list `pairs`, without the methods, which nothing reads. -/
def pairs (funcList : List VersionedMethod) : List (APIVersionRequest × Int) :=
  funcList.flatMap fun f => [(f.startVersion, 1), (f.endVersion, -1)]

/-- The loop over the sorted pairs. -/
def exceedsOne : List (APIVersionRequest × Int) → Int → Bool
  | [], _ => false
  | p :: ps, counter => if 1 < counter + p.2 then true else exceedsOne ps (counter + p.2)

def checkForVersionsIntersection (funcList : List VersionedMethod) : Bool :=
  exceedsOne (sortBy (·.1) (pairs funcList)) 0

/-- One decoration: the method is appended, and unless it intersects another one the list is sorted
by the lower bounds, the highest first. -/
def apiVersion (funcList : List VersionedMethod) (f : VersionedMethod) :
    Except Exc (List VersionedMethod) :=
  if checkForVersionsIntersection (funcList ++ [f]) then
    -- the text cannot be formatted with the bounds, and stays as it is
    .error (.raised .apiVersionsIntersect
      "Version of %(name) %(min_ver) %(max_ver) intersects with another versions.")
  else .ok ((funcList ++ [f]).mergeSort fun f g => g.startVersion ≤ f.startVersion)

/-- The decorations of a method, one after the other. -/
def decorate (decorations : List VersionedMethod) : Except Exc (List VersionedMethod) :=
  decorations.foldlM apiVersion []

/-- `version_select`, up to the call of the method. -/
def versionSelect (v : APIVersionRequest) : List VersionedMethod → Except Exc VersionedMethod
  | [] =>
    .error (.raised .versionNotFoundForAPIMethod ("API version API Version Request " ++
      s!"Major: {v.verMajor}, Minor: {v.verMinor} is not supported on this method."))
  | f :: funcList =>
    match v.versionMatches f.startVersion f.endVersion with
    | .error e => .error e
    | .ok true => .ok f
    | .ok false => versionSelect v funcList

/-! ## What the check should tell -/

/-- Some version is matched by two of the methods. -/
def Intersects (funcList : List VersionedMethod) : Prop :=
  ∃ v, 1 < funcList.countP (·.isMatched v)

/-- The check tells whether two of the methods intersect. -/
def ChecksIntersection (funcList : List VersionedMethod) : Prop :=
  checkForVersionsIntersection funcList = true ↔ Intersects funcList

/-- No requested version has more than one method to select. -/
def Unambiguous (funcList : List VersionedMethod) : Prop :=
  ∀ v, funcList.countP (·.isMatched v) ≤ 1

/-- The lists that the decorations check, the methods registered before them first. -/
def checkedLists (funcList : List VersionedMethod) :
    List VersionedMethod → List (List VersionedMethod)
  | [] => []
  | f :: decorations =>
    (funcList ++ [f]) ::
      match apiVersion funcList f with
      | .error _ => []
      | .ok funcList => checkedLists funcList decorations

/-- By the start of the method `k` of the list, `f` has started; of equal bounds the earlier method
of the list counts first. -/
def Started (k f : VersionedMethod × Nat) : Prop :=
  f.1.startVersion < k.1.startVersion ∨ f.1.startVersion = k.1.startVersion ∧ f.2 ≤ k.2

/-- By the start of the method `k` of the list, `f` has ended; a null end is the lowest version. -/
def Ended (k f : VersionedMethod × Nat) : Prop :=
  f.1.endVersion < k.1.startVersion ∨ f.1.endVersion = k.1.startVersion ∧ f.2 < k.2

instance : DecidableRel Started := fun _ _ => inferInstanceAs (Decidable (_ ∨ _))

instance : DecidableRel Ended := fun _ _ => inferInstanceAs (Decidable (_ ∨ _))

/-- At the start of some method more methods are in force, by two, than have ended and are yet to
start. -/
def Outnumbered (funcList : List VersionedMethod) : Prop :=
  ∃ k ∈ funcList.zipIdx,
    funcList.zipIdx.countP (fun f => Ended k f ∧ ¬ Started k f) + 2 ≤
      funcList.zipIdx.countP fun f => Started k f ∧ ¬ Ended k f

instance : DecidablePred Outnumbered := fun _ => inferInstanceAs (Decidable (∃ k ∈ _, _))

/-! ## Matching -/

section Matching

variable {v : APIVersionRequest} {f : VersionedMethod}

theorem APIVersionRequest.isNull_iff : v.isNull = true ↔ v = .null := by
  obtain ⟨major, minor⟩ := v
  simp [isNull, null]

theorem APIVersionRequest.le_iff {w : APIVersionRequest} : v ≤ w ↔ v.pair ≤ w.pair := Iff.rfl

theorem APIVersionRequest.null_le : APIVersionRequest.null ≤ v := by
  rw [le_iff, pair, pair, Prod.Lex.toLex_le_toLex]
  rcases Nat.eq_zero_or_pos v.verMajor with hZero | hPos
  · exact Or.inr ⟨hZero.symm, Nat.zero_le _⟩
  · exact Or.inl hPos

theorem APIVersionRequest.isNull_of_error {minVersion maxVersion : APIVersionRequest} {e : Exc}
    (h : v.versionMatches minVersion maxVersion = .error e) : v.isNull = true := by
  unfold versionMatches at h
  split at h
  · assumption
  · split_ifs at h

theorem VersionedMethod.isMatched_iff : f.isMatched v = true ↔
    v.isNull = false ∧ f.startVersion ≤ v ∧ (f.endVersion.isNull = true ∨ v ≤ f.endVersion) := by
  unfold isMatched APIVersionRequest.versionMatches
  rw [f.startNotNull]
  cases v.isNull <;> cases f.endVersion.isNull <;> simp

/-- A method that is in force at the start of another one matches that start. -/
theorem isMatched_of_inForce {k g : VersionedMethod × Nat} (hStarted : Started k g)
    (hNotEnded : ¬ Ended k g) : g.1.isMatched k.1.startVersion = true := by
  rw [VersionedMethod.isMatched_iff]
  refine ⟨k.1.startNotNull, ?_, Or.inr ?_⟩
  · rcases hStarted with hLt | ⟨hEq, -⟩
    · exact hLt.le
    · exact hEq.le
  · by_contra hLater
    exact hNotEnded (Or.inl (not_le.mp hLater))

end Matching

/-! ## The sweep -/

section Sweep

variable {funcList : List VersionedMethod}

/-- The counter exceeds one first at the start of a method. -/
theorem exceedsOne_iff {ps : List (APIVersionRequest × Int)} {counter : Int} (h : counter ≤ 1) :
    exceedsOne ps counter = true ↔
      ∃ p x q, ps = p ++ x :: q ∧ 0 < x.2 ∧ 1 < counter + ((p ++ [x]).map (·.2)).sum := by
  induction ps generalizing counter with
  | nil =>
    simp [exceedsOne]
  | cons y ps ih =>
    rw [exceedsOne]
    split
    · rename_i hExceeds
      refine iff_of_true rfl ⟨[], y, ps, rfl, by omega, ?_⟩
      simpa using hExceeds
    · rename_i hWithin
      rw [ih (by omega)]
      constructor
      · rintro ⟨p, x, q, rfl, hPos, hSum⟩
        refine ⟨y :: p, x, q, rfl, hPos, ?_⟩
        simp only [List.cons_append, List.map_cons, List.sum_cons]
        omega
      · rintro ⟨p, x, q, hSplit, hPos, hSum⟩
        cases p with
        | nil =>
          obtain ⟨rfl, rfl⟩ := List.cons.inj hSplit
          simp at hSum
          omega
        | cons y' p =>
          obtain ⟨rfl, rfl⟩ := List.cons.inj hSplit
          refine ⟨p, x, q, rfl, hPos, ?_⟩
          simp only [List.cons_append, List.map_cons, List.sum_cons] at hSum
          omega

/-- The pair of a start, with its place. -/
def startPair (f : VersionedMethod × Nat) : (APIVersionRequest × Int) × Nat :=
  ((f.1.startVersion, 1), 2 * f.2)

def endPair (f : VersionedMethod × Nat) : (APIVersionRequest × Int) × Nat :=
  ((f.1.endVersion, -1), 2 * f.2 + 1)

theorem zipIdx_pairs (n : Nat) (funcList : List VersionedMethod) :
    (pairs funcList).zipIdx (2 * n) =
      (funcList.zipIdx n).flatMap fun f => [startPair f, endPair f] := by
  induction funcList generalizing n with
  | nil => rfl
  | cons f funcList ih =>
    have hCons : pairs (f :: funcList) =
        (f.startVersion, 1) :: (f.endVersion, -1) :: pairs funcList := rfl
    rw [hCons, List.zipIdx_cons, List.zipIdx_cons, List.zipIdx_cons, List.flatMap_cons, ← ih]
    rfl

/-- A sum over some of the pairs counts the starts and the ends among them. -/
theorem sum_filter_flatMap {γ δ : Type} (l : List γ) (a b : γ → δ) (w : δ → Int) (p : δ → Bool)
    (ha : ∀ c, w (a c) = 1) (hb : ∀ c, w (b c) = -1) :
    (((l.flatMap fun c => [a c, b c]).filter p).map w).sum =
      (l.countP fun c => p (a c) : Int) - l.countP fun c => p (b c) := by
  induction l with
  | nil => rfl
  | cons c l ih =>
    rw [List.flatMap_cons, List.filter_append, List.map_append, List.sum_append, ih,
      List.countP_cons, List.countP_cons]
    cases hA : p (a c) <;> cases hB : p (b c) <;> simp [hA, hB, ha, hb] <;> omega

theorem notAfter_start {k f : VersionedMethod × Nat} :
    NotAfter (·.1) (startPair f) (startPair k) ↔ Started k f := by
  unfold NotAfter Started startPair
  dsimp only
  rw [Nat.mul_le_mul_left_iff (by decide)]

theorem notAfter_end {k f : VersionedMethod × Nat} :
    NotAfter (·.1) (endPair f) (startPair k) ↔ Ended k f := by
  unfold NotAfter Ended startPair endPair
  dsimp only
  rw [show 2 * f.2 + 1 ≤ 2 * k.2 ↔ f.2 < k.2 by omega]

theorem countP_sub_countP {γ : Type} (l : List γ) (p q : γ → Prop) [DecidablePred p]
    [DecidablePred q] : (l.countP (fun c => p c) : Int) - l.countP (fun c => q c) =
      l.countP (fun c => p c ∧ ¬ q c) - l.countP fun c => q c ∧ ¬ p c := by
  induction l with
  | nil => rfl
  | cons c l ih =>
    simp only [List.countP_cons]
    by_cases hP : p c <;> by_cases hQ : q c <;> simp [hP, hQ] at ih ⊢ <;> omega

/-- The counter at the start of a method. -/
theorem counter_eq (k : VersionedMethod × Nat) :
    (((pairs funcList).zipIdx.filter fun z => NotAfter (·.1) z (startPair k)).map (·.1.2)).sum =
      (funcList.zipIdx.countP (fun f => Started k f ∧ ¬ Ended k f) : Int) -
        funcList.zipIdx.countP fun f => Ended k f ∧ ¬ Started k f := by
  have hPairs := zipIdx_pairs 0 funcList
  rw [Nat.mul_zero] at hPairs
  rw [hPairs, sum_filter_flatMap _ startPair endPair (·.1.2) _ (fun _ => rfl) fun _ => rfl,
    ← countP_sub_countP]
  simp only [notAfter_start, notAfter_end]

/-- The check finds an intersection where methods are outnumbered. -/
theorem checkForVersionsIntersection_iff :
    checkForVersionsIntersection funcList = true ↔ Outnumbered funcList := by
  unfold checkForVersionsIntersection
  rw [exceedsOne_iff (by omega),
    exists_partial_sum_sortBy (·.2) fun (x : APIVersionRequest × Int) sum => 0 < x.2 ∧ 1 < 0 + sum]
  have hPairs := zipIdx_pairs 0 funcList
  rw [Nat.mul_zero] at hPairs
  constructor
  · rintro ⟨y, hMem, hPos, hSum⟩
    rw [hPairs] at hMem
    obtain ⟨k, hk, hPair⟩ := List.mem_flatMap.mp hMem
    rcases List.mem_cons.mp hPair with rfl | hEnd
    · rw [counter_eq] at hSum
      exact ⟨k, hk, by omega⟩
    · rw [List.mem_singleton.mp hEnd] at hPos
      exact absurd hPos (by simp [endPair])
  · rintro ⟨k, hk, hCount⟩
    have hMem : startPair k ∈ (pairs funcList).zipIdx := by
      rw [hPairs]
      exact List.mem_flatMap.mpr ⟨k, hk, List.mem_cons_self⟩
    refine ⟨startPair k, hMem, Int.one_pos, ?_⟩
    rw [counter_eq]
    omega

theorem countP_zipIdx (p : VersionedMethod → Bool) :
    funcList.zipIdx.countP (fun f => p f.1) = funcList.countP p := by
  conv_rhs => rw [← List.zipIdx_map_fst 0 funcList]
  rw [List.countP_map]
  rfl

/-- Where methods are outnumbered two of them match the start of the one. -/
theorem intersects_of_outnumbered (h : Outnumbered funcList) : Intersects funcList := by
  obtain ⟨k, -, hCount⟩ := h
  refine ⟨k.1.startVersion, ?_⟩
  have hMono : funcList.zipIdx.countP (fun f => Started k f ∧ ¬ Ended k f) ≤
      funcList.zipIdx.countP fun f => f.1.isMatched k.1.startVersion := by
    apply List.countP_mono_left
    intro f _ hInForce
    have hInForce := of_decide_eq_true hInForce
    exact isMatched_of_inForce hInForce.1 hInForce.2
  have hMatched : funcList.zipIdx.countP (fun f => f.1.isMatched k.1.startVersion) =
      funcList.countP fun f => f.isMatched k.1.startVersion := countP_zipIdx _
  omega

theorem checksIntersection_list (funcList : List VersionedMethod) :
    ChecksIntersection funcList ↔ ¬ Intersects funcList ∨ Outnumbered funcList := by
  unfold ChecksIntersection
  rw [checkForVersionsIntersection_iff]
  constructor
  · intro h
    by_cases hIntersects : Intersects funcList
    · exact Or.inr (h.mpr hIntersects)
    · exact Or.inl hIntersects
  · intro h
    refine ⟨intersects_of_outnumbered, fun hIntersects => ?_⟩
    exact h.resolve_left (not_not_intro hIntersects)

end Sweep

/-! ## A sequence of decorations -/

section Decorations

variable {funcList l : List VersionedMethod} {f : VersionedMethod}

theorem unambiguous_iff : Unambiguous funcList ↔ ¬ Intersects funcList := by
  simp [Unambiguous, Intersects]

theorem unambiguous_of_subperm (hUnambiguous : Unambiguous l) (h : funcList.Subperm l) :
    Unambiguous funcList :=
  fun v => (h.countP_le _).trans (hUnambiguous v)

theorem apiVersion_eq_ok : apiVersion funcList f = .ok l ↔
    checkForVersionsIntersection (funcList ++ [f]) = false ∧
      l = (funcList ++ [f]).mergeSort fun f g => g.startVersion ≤ f.startVersion := by
  unfold apiVersion
  split
  · rename_i hCheck
    simp [hCheck]
  · rename_i hCheck
    rw [Bool.not_eq_true] at hCheck
    rw [Except.ok.injEq, and_iff_right hCheck, eq_comm]

/-- Accepted decorations register all of the methods, and those that are registered before a check
stay. -/
theorem checked_subperm {decorations : List VersionedMethod}
    (hAccepted : decorations.foldlM apiVersion funcList = .ok l) :
    l.Perm (funcList ++ decorations) ∧
      ∀ c ∈ checkedLists funcList decorations, c.Subperm l ∧
        checkForVersionsIntersection c = false := by
  induction decorations generalizing funcList with
  | nil =>
    cases hAccepted
    rw [List.append_nil]
    exact ⟨List.Perm.refl _, nofun⟩
  | cons f decorations ih =>
    rw [List.foldlM_cons] at hAccepted
    cases hFirst : apiVersion funcList f with
    | error e =>
      rw [hFirst] at hAccepted
      cases hAccepted
    | ok funcList' =>
      rw [hFirst] at hAccepted
      obtain ⟨hCheck, rfl⟩ := apiVersion_eq_ok.mp hFirst
      obtain ⟨hPerm, hChecked⟩ := ih hAccepted
      have hSorted := List.mergeSort_perm (funcList ++ [f])
        fun f g => g.startVersion ≤ f.startVersion
      have hAll : l.Perm (funcList ++ [f] ++ decorations) :=
        hPerm.trans (hSorted.append_right decorations)
      refine ⟨by rwa [List.append_cons], ?_⟩
      intro c hc
      rw [checkedLists, hFirst] at hc
      rcases List.mem_cons.mp hc with rfl | hc
      · exact ⟨(List.sublist_append_left _ _).subperm.trans hAll.symm.subperm, hCheck⟩
      · exact hChecked c hc

/-- The last check is of all of the methods. -/
theorem exists_checked_perm {decorations : List VersionedMethod} (hSome : decorations ≠ [])
    (hAccepted : decorations.foldlM apiVersion funcList = .ok l) :
    ∃ c ∈ checkedLists funcList decorations, c.Perm l := by
  induction decorations generalizing funcList with
  | nil => exact absurd rfl hSome
  | cons f decorations ih =>
    rw [List.foldlM_cons] at hAccepted
    cases hFirst : apiVersion funcList f with
    | error e =>
      rw [hFirst] at hAccepted
      cases hAccepted
    | ok funcList' =>
      rw [hFirst] at hAccepted
      rw [checkedLists, hFirst]
      by_cases hLast : decorations = []
      · subst hLast
        cases hAccepted
        obtain ⟨-, rfl⟩ := apiVersion_eq_ok.mp hFirst
        exact ⟨_, List.mem_cons_self, (List.mergeSort_perm _ _).symm⟩
      · obtain ⟨c, hc, hPerm⟩ := ih hLast hAccepted
        exact ⟨c, List.mem_cons_of_mem _ hc, hPerm⟩

/-- The method that is selected from an unambiguous list is the one that matches, wherever it
stands. -/
theorem versionSelect_eq_ok {v : APIVersionRequest} (h : Unambiguous funcList) :
    versionSelect v funcList = .ok f ↔ f ∈ funcList ∧ f.isMatched v = true := by
  induction funcList with
  | nil => simp [versionSelect]
  | cons g funcList ih =>
    have hTail : Unambiguous funcList :=
      unambiguous_of_subperm h (List.sublist_cons_self _ _).subperm
    have hMatched : g.isMatched v = true → ∀ f ∈ funcList, ¬ f.isMatched v = true := by
      intro hg
      have hCount := h v
      rw [List.countP_cons_of_pos hg] at hCount
      exact List.countP_eq_zero.mp (by omega)
    rw [versionSelect, List.mem_cons]
    cases hVersion : v.versionMatches g.startVersion g.endVersion with
    | error e =>
      refine iff_of_false nofun ?_
      rintro ⟨-, hf⟩
      rw [VersionedMethod.isMatched_iff, APIVersionRequest.isNull_of_error hVersion] at hf
      cases hf.1
    | ok b =>
      cases b with
      | true =>
        have hg : g.isMatched v = true := by simp [VersionedMethod.isMatched, hVersion]
        dsimp only
        rw [Except.ok.injEq]
        constructor
        · rintro rfl
          exact ⟨Or.inl rfl, hg⟩
        · rintro ⟨rfl | hMem, hf⟩
          · rfl
          · exact absurd hf (hMatched hg f hMem)
      | false =>
        have hg : ¬ g.isMatched v = true := by simp [VersionedMethod.isMatched, hVersion]
        dsimp only
        rw [ih hTail]
        constructor
        · rintro ⟨hMem, hf⟩
          exact ⟨Or.inr hMem, hf⟩
        · rintro ⟨rfl | hMem, hf⟩
          · exact absurd hf hg
          · exact ⟨hMem, hf⟩

/-- A check tells whether two methods intersect exactly if none do or methods are outnumbered; and
accepted decorations leave no version ambiguous exactly if all of their checks were of such
lists. -/
theorem checksIntersection_iff (funcList decorations : List VersionedMethod) :
    (ChecksIntersection funcList ↔ ¬ Intersects funcList ∨ Outnumbered funcList) ∧
      ∀ l, decorate decorations = .ok l →
        (Unambiguous l ↔
          ∀ c ∈ checkedLists [] decorations, ¬ Intersects c ∨ Outnumbered c) := by
  refine ⟨checksIntersection_list funcList, fun l hAccepted => ?_⟩
  obtain ⟨hPerm, hChecked⟩ := checked_subperm hAccepted
  constructor
  · intro hUnambiguous c hc
    exact Or.inl (unambiguous_iff.mp (unambiguous_of_subperm hUnambiguous (hChecked c hc).1))
  · intro hAll
    by_cases hNone : decorations = []
    · subst hNone
      rw [List.perm_nil.mp hPerm]
      exact fun v => Nat.zero_le 1
    · obtain ⟨c, hc, hLast⟩ := exists_checked_perm hNone hAccepted
      have hCheck := (hChecked c hc).2
      have hApart : ¬ Outnumbered c := by
        rw [← checkForVersionsIntersection_iff, hCheck]
        exact Bool.false_ne_true
      have hUnambiguous := unambiguous_iff.mpr ((hAll c hc).resolve_right hApart)
      exact unambiguous_of_subperm hUnambiguous hLast.symm.subperm

end Decorations

/-! ## Methods with an upper limit -/

section Limits

variable {funcList l : List VersionedMethod} {f g : VersionedMethod}

/-- The earlier one of two methods has ended when the other one starts, or the other way round. -/
def PassesCheck (f g : VersionedMethod) : Prop :=
  f.endVersion ≤ g.startVersion ∨ g.endVersion < f.startVersion

/-- No version is between the bounds of both. -/
def Apart (f g : VersionedMethod) : Prop :=
  f.endVersion < g.startVersion ∨ g.endVersion < f.startVersion

/-- The upper bound of neither is the lower bound of the other. -/
def Untouching (f g : VersionedMethod) : Prop :=
  f.endVersion ≠ g.startVersion ∧ g.endVersion ≠ f.startVersion

theorem countP_le_one_iff {γ : Type} {l : List γ} {p : γ → Bool} :
    l.countP p ≤ 1 ↔ l.Pairwise fun a b => ¬ (p a = true ∧ p b = true) := by
  induction l with
  | nil => exact iff_of_true (Nat.zero_le 1) List.Pairwise.nil
  | cons a l ih =>
    rw [List.pairwise_cons, ← ih]
    by_cases ha : p a = true
    · rw [List.countP_cons_of_pos ha]
      constructor
      · intro h
        have hNone := List.countP_eq_zero.mp (show l.countP p = 0 by omega)
        exact ⟨fun b hb hBoth => hNone b hb hBoth.2, by omega⟩
      · rintro ⟨hNone, -⟩
        have hZero : l.countP p = 0 := List.countP_eq_zero.mpr fun b hb hp => hNone b hb ⟨ha, hp⟩
        omega
    · rw [List.countP_cons_of_neg ha]
      exact (and_iff_right fun b _ hBoth => ha hBoth.1).symm

theorem limited_matched (hLimited : f.startVersion ≤ f.endVersion) (v : APIVersionRequest) :
    f.isMatched v = true ↔ f.startVersion ≤ v ∧ v ≤ f.endVersion := by
  have hNotNull : ∀ w : APIVersionRequest, f.startVersion ≤ w → w.isNull = false := by
    intro w hw
    rw [Bool.eq_false_iff]
    intro hNull
    have hStart := f.startNotNull
    rw [APIVersionRequest.isNull_iff.mp hNull] at hw
    rw [le_antisymm hw APIVersionRequest.null_le] at hStart
    cases hStart
  rw [VersionedMethod.isMatched_iff, hNotNull _ hLimited]
  constructor
  · rintro ⟨-, hFrom, hFalse | hTo⟩
    · cases hFalse
    · exact ⟨hFrom, hTo⟩
  · exact fun h => ⟨hNotNull v h.1, h.1, Or.inr h.2⟩

theorem apart_iff (hf : f.startVersion ≤ f.endVersion) (hg : g.startVersion ≤ g.endVersion) :
    Apart f g ↔ ∀ v, ¬ (f.isMatched v = true ∧ g.isMatched v = true) := by
  constructor
  · rintro hApart v ⟨hMatched, hMatched'⟩
    obtain ⟨hFrom, hTo⟩ := (limited_matched hf v).mp hMatched
    obtain ⟨hFrom', hTo'⟩ := (limited_matched hg v).mp hMatched'
    rcases hApart with hBefore | hAfter
    · exact absurd (hFrom'.trans hTo) (not_le.mpr hBefore)
    · exact absurd (hFrom.trans hTo') (not_le.mpr hAfter)
  · intro hNone
    -- the later start is matched by its own method
    rcases le_total f.startVersion g.startVersion with hLe | hLe
    · left
      by_contra hLate
      exact hNone g.startVersion ⟨(limited_matched hf _).mpr ⟨hLe, not_lt.mp hLate⟩,
        (limited_matched hg _).mpr ⟨le_rfl, hg⟩⟩
    · right
      by_contra hLate
      exact hNone f.startVersion ⟨(limited_matched hf _).mpr ⟨le_rfl, hf⟩,
        (limited_matched hg _).mpr ⟨hLe, not_lt.mp hLate⟩⟩

theorem unambiguous_iff_apart (hLimited : ∀ f ∈ l, f.startVersion ≤ f.endVersion) :
    Unambiguous l ↔ l.Pairwise Apart := by
  have hPairs : Unambiguous l ↔ l.Pairwise fun f g =>
      ∀ v, ¬ (f.isMatched v = true ∧ g.isMatched v = true) := by
    unfold Unambiguous
    simp only [countP_le_one_iff, List.pairwise_iff_getElem]
    exact ⟨fun h i j hi hj hLt v => h v i j hi hj hLt, fun h v i j hi hj hLt => h i j hi hj hLt v⟩
  rw [hPairs]
  exact List.Pairwise.iff_of_mem fun hf hg => (apart_iff (hLimited _ hf) (hLimited _ hg)).symm

/-- A method with an upper limit has started when it ends. -/
theorem started_of_ended {k f : VersionedMethod × Nat} (hf : f.1.startVersion ≤ f.1.endVersion)
    (h : Ended k f) : Started k f := by
  rcases h with hLt | ⟨hEq, hPlace⟩
  · exact Or.inl (hf.trans_lt hLt)
  · rcases (hf.trans_eq hEq).lt_or_eq with hLt | hSame
    · exact Or.inl hLt
    · exact Or.inr ⟨hSame, hPlace.le⟩

/-- The methods of a pair that passes are never in force together. -/
theorem not_both_of_passesCheck {f g k : VersionedMethod × Nat} (h : PassesCheck f.1 g.1)
    (hPlace : f.2 < g.2) (hStartedF : Started k f) (hInF : ¬ Ended k f) (hStartedG : Started k g)
    (hInG : ¬ Ended k g) : False := by
  have hFrom : ∀ {f : VersionedMethod × Nat}, Started k f → f.1.startVersion ≤ k.1.startVersion :=
    fun hStarted => hStarted.elim (·.le) (·.1.le)
  have hTo : ∀ {f : VersionedMethod × Nat}, ¬ Ended k f → k.1.startVersion ≤ f.1.endVersion :=
    fun hIn => not_lt.mp fun hLt => hIn (Or.inl hLt)
  rcases h with hBefore | hAfter
  · -- they touch at the start of `k`, by which the later one must have started
    have hSame := le_antisymm (hBefore.trans (hFrom hStartedG)) (hTo hInF)
    have hLast : k.2 ≤ f.2 := not_lt.mp fun hLt => hInF (Or.inr ⟨hSame, hLt⟩)
    rcases hStartedG with hLt | ⟨-, hPlaceG⟩
    · exact absurd (hSame.symm.le.trans hBefore) (not_le.mpr hLt)
    · omega
  · exact absurd ((hFrom hStartedF).trans (hTo hInG)) (not_le.mpr hAfter)

theorem passesCheck_of_not_both {f g : VersionedMethod × Nat}
    (hf : f.1.startVersion ≤ f.1.endVersion) (hg : g.1.startVersion ≤ g.1.endVersion)
    (hPlace : f.2 < g.2)
    (h : ∀ k, k = f ∨ k = g → ¬ ((Started k f ∧ ¬ Ended k f) ∧ Started k g ∧ ¬ Ended k g)) :
    PassesCheck f.1 g.1 := by
  have hOwn : ∀ {k : VersionedMethod × Nat}, k.1.startVersion ≤ k.1.endVersion →
      Started k k ∧ ¬ Ended k k := by
    refine fun hk => ⟨Or.inr ⟨rfl, le_rfl⟩, ?_⟩
    rintro (hLt | ⟨-, hLt⟩)
    · exact absurd hk (not_le.mpr hLt)
    · exact absurd hLt (Nat.lt_irrefl _)
  rcases le_or_gt f.1.startVersion g.1.startVersion with hLe | hLt
  · left
    by_contra hLate
    have hStarted : Started g f := hLe.lt_or_eq.imp id fun hEq => ⟨hEq, hPlace.le⟩
    refine h g (Or.inr rfl) ⟨⟨hStarted, ?_⟩, hOwn hg⟩
    rintro (hEnded | ⟨hEnded, -⟩)
    · exact hLate hEnded.le
    · exact hLate hEnded.le
  · right
    by_contra hLate
    refine h f (Or.inl rfl) ⟨hOwn hf, Or.inl hLt, ?_⟩
    rintro (hEnded | ⟨-, hBefore⟩)
    · exact hLate hEnded
    · omega

/-- The check of methods with upper limits goes by the bounds of every two of them. -/
theorem checkForVersionsIntersection_limited
    (hLimited : ∀ f ∈ funcList, f.startVersion ≤ f.endVersion) :
    checkForVersionsIntersection funcList = false ↔ funcList.Pairwise PassesCheck := by
  have hMem : ∀ k ∈ funcList.zipIdx, k.1 ∈ funcList := fun k hk => by
    rw [← List.zipIdx_map_fst 0 funcList]
    exact List.mem_map_of_mem hk
  have hCount : ¬ Outnumbered funcList ↔ ∀ k ∈ funcList.zipIdx,
      funcList.zipIdx.countP (fun f => Started k f ∧ ¬ Ended k f) ≤ 1 := by
    unfold Outnumbered
    rw [not_exists]
    refine forall_congr' fun k => not_and.trans (imp_congr_right fun _ => ?_)
    have hZero : funcList.zipIdx.countP (fun f => Ended k f ∧ ¬ Started k f) = 0 := by
      refine List.countP_eq_zero.mpr fun f hf hEnded => ?_
      have hEnded := of_decide_eq_true hEnded
      exact hEnded.2 (started_of_ended (hLimited _ (hMem f hf)) hEnded.1)
    omega
  have hPairs : funcList.Pairwise PassesCheck ↔
      funcList.zipIdx.Pairwise fun f g => PassesCheck f.1 g.1 := by
    rw [← List.pairwise_map (f := Prod.fst), List.zipIdx_map_fst]
  rw [← Bool.not_eq_true, checkForVersionsIntersection_iff, hCount, hPairs]
  simp only [countP_le_one_iff, decide_eq_true_eq, List.pairwise_iff_getElem]
  have hPlace : ∀ (i j : Nat) (hi : i < funcList.zipIdx.length) (hj : j < funcList.zipIdx.length),
      i < j → funcList.zipIdx[i].2 < funcList.zipIdx[j].2 := by
    intro i j hi hj hLt
    simpa using hLt
  constructor
  · intro h i j hi hj hLt
    have hf := List.getElem_mem hi
    have hg := List.getElem_mem hj
    refine passesCheck_of_not_both (hLimited _ (hMem _ hf)) (hLimited _ (hMem _ hg))
      (hPlace i j hi hj hLt) fun k hk => ?_
    rcases hk with rfl | rfl
    · exact h _ hf i j hi hj hLt
    · exact h _ hg i j hi hj hLt
  · rintro h k - i j hi hj hLt ⟨⟨hStartedF, hInF⟩, hStartedG, hInG⟩
    exact not_both_of_passesCheck (h i j hi hj hLt) (hPlace i j hi hj hLt) hStartedF hInF
      hStartedG hInG

/-- For methods with upper limits the check is wrong exactly about those that touch, where the one
that ends stands before the one that starts. -/
theorem checksIntersection_limited
    (hLimited : ∀ f ∈ funcList, f.startVersion ≤ f.endVersion) :
    ChecksIntersection funcList ↔
      (funcList.Pairwise PassesCheck → funcList.Pairwise Apart) := by
  rw [checksIntersection_list, ← checkForVersionsIntersection_iff, ← Bool.not_eq_false,
    checkForVersionsIntersection_limited hLimited, ← unambiguous_iff,
    unambiguous_iff_apart hLimited, imp_iff_not_or]
  exact or_comm

theorem apart_iff_untouching (hf : f.startVersion ≤ f.endVersion)
    (hg : g.startVersion ≤ g.endVersion) (hPasses : PassesCheck f g) :
    Apart f g ↔ Untouching f g := by
  constructor
  · rintro (hBefore | hAfter)
    · exact ⟨hBefore.ne, ((hf.trans_lt hBefore).trans_le hg).ne'⟩
    · exact ⟨((hg.trans_lt hAfter).trans_le hf).ne', hAfter.ne⟩
  · rintro ⟨hNe, -⟩
    exact hPasses.imp_left fun hLe => hLe.lt_of_ne hNe

/-- Accepted decorations with upper limits leave no version ambiguous exactly if no bounds of two
methods touch. -/
theorem unambiguous_limited {decorations : List VersionedMethod}
    (hAccepted : decorate decorations = .ok l)
    (hLimited : ∀ f ∈ decorations, f.startVersion ≤ f.endVersion) :
    Unambiguous l ↔ decorations.Pairwise Untouching := by
  obtain ⟨hPerm, hChecked⟩ := checked_subperm hAccepted
  rw [List.nil_append] at hPerm
  have hSymm : ∀ {f g}, Untouching f g → Untouching g f := fun h => ⟨h.2, h.1⟩
  by_cases hNone : decorations = []
  · subst hNone
    rw [List.perm_nil.mp hPerm]
    exact iff_of_true (fun v => Nat.zero_le 1) List.Pairwise.nil
  · obtain ⟨c, hc, hLast⟩ := exists_checked_perm hNone hAccepted
    have hAll : c.Perm decorations := hLast.trans hPerm
    have hLimits : ∀ f ∈ c, f.startVersion ≤ f.endVersion :=
      fun f hf => hLimited f (hAll.mem_iff.mp hf)
    have hPasses := (checkForVersionsIntersection_limited hLimits).mp (hChecked c hc).2
    have hSame : Unambiguous l ↔ Unambiguous c := by
      unfold Unambiguous
      simp only [hLast.countP_eq]
    rw [hSame, unambiguous_iff_apart hLimits, ← hAll.pairwise_iff hSymm]
    constructor
    · intro h
      exact (h.and hPasses).imp_of_mem fun hf hg hBoth =>
        (apart_iff_untouching (hLimits _ hf) (hLimits _ hg) hBoth.2).mp hBoth.1
    · intro h
      exact (h.and hPasses).imp_of_mem fun hf hg hBoth =>
        (apart_iff_untouching (hLimits _ hf) (hLimits _ hg) hBoth.2).mpr hBoth.1

end Limits

/-! ## Two methods without an upper limit -/

/-- A method from version 1.`minor` on. -/
def since (minor : Nat) : VersionedMethod := ⟨⟨1, minor⟩, .null, by rfl⟩

theorem checksIntersection_iff_since :
    (ChecksIntersection [since 0, since 1] ↔
      ¬ Intersects [since 0, since 1] ∨ Outnumbered [since 0, since 1]) ∧
      (Unambiguous [since 0] ↔
        ∀ c ∈ checkedLists [] [since 0], ¬ Intersects c ∨ Outnumbered c) := by
  have hIff := checksIntersection_iff [since 0, since 1] [since 0]
  refine ⟨hIff.1, hIff.2 [since 0] ?_⟩
  have hCheck : checkForVersionsIntersection [since 0] = false := by
    rw [← Bool.not_eq_true, checkForVersionsIntersection_iff]
    decide
  have hFirst : apiVersion [] (since 0) = .ok [since 0] :=
    apiVersion_eq_ok.mpr ⟨hCheck, (List.mergeSort_singleton _).symm⟩
  rw [decorate, List.foldlM_cons, hFirst]
  rfl

/-- Whatever the methods, as long as no upper bound is below its lower one, the check is right. -/
def AlwaysChecksIntersection : Prop :=
  ∀ funcList : List VersionedMethod,
    (∀ f ∈ funcList, f.endVersion.isNull = true ∨ f.startVersion ≤ f.endVersion) →
      ChecksIntersection funcList

/-- Version 1.1 is matched by both, and the check finds nothing. -/
theorem not_alwaysChecksIntersection : ¬ AlwaysChecksIntersection := by
  intro h
  have hCheck := (h [since 0, since 1] (by decide)).mpr ⟨⟨1, 1⟩, by decide⟩
  rw [checkForVersionsIntersection_iff] at hCheck
  revert hCheck
  decide

end MasakariHA.Api
