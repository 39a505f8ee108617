import MasakariHA.Db.Listings
import MasakariHA.Lib.ListHeap

/-!
# Sort parameters and their default arguments

`_process_sort_params` of `db/sqlalchemy/api.py` on lists that are objects: the arguments, and the
list `['created_at', 'id']` that Python makes once, when the function is defined, and shares between
all calls.

* `processSortParams`: the function, and `ensures_processSortParams`: it gives what
  `Listings.processSortParams` gives for the contents of the lists, in new lists;
* `Processed`: what is returned, or when `InvalidInput` is raised;
* `runCalls`, `processed_runCalls`: any number of calls one after the other.
-/

namespace MasakariHA.SortParams

open Lib Lib.ListHeap

/-! ## The function -/

/-- The elements of a list that may be `None`. -/
def readOptional (a : Option Nat) : EStateM Exc (ListHeap String) (List String) :=
  match a with
  | some a => read a
  | none => pure []

/-- The directions that are given, each one checked before it is taken over. -/
def checkedDirs (sortDirs : List String) : EStateM Exc (ListHeap String) Nat := do
  let resultDirs ← alloc []
  sortDirs.forM fun sortDir => do
    if sortDir ∉ ["asc", "desc"] then
      throw (.raised .invalidInput
        "Invalid input received: Unknown sort direction, must be 'asc' or 'desc'")
    append resultDirs sortDir
  pure resultDirs

/-- `while len(result_dirs) < len(result_keys)`; every round makes the directions longer by one, so
that as many rounds as there are keys are enough. -/
def padDirs (resultKeys resultDirs : Nat) (defaultDirValue : String) :
    Nat → EStateM Exc (ListHeap String) Unit
  | 0 => pure ()
  | rounds + 1 => do
    if (← read resultDirs).length < (← read resultKeys).length then
      append resultDirs defaultDirValue
      padDirs resultKeys resultDirs defaultDirValue rounds

/-- A default key that is not among the keys is added to them. -/
def includeDefault (resultKeys resultDirs : Nat) (defaultDirValue key : String) :
    EStateM Exc (ListHeap String) Unit := do
  unless key ∈ (← read resultKeys) do
    append resultKeys key
    append resultDirs defaultDirValue

/-- `_process_sort_params`: the two new lists that are returned. -/
def processSortParams (sortKeys sortDirs : Option Nat) (defaultKeys : Nat) (defaultDir : String) :
    EStateM Exc (ListHeap String) (Nat × Nat) := do
  let givenKeys ← readOptional sortKeys
  let givenDirs ← readOptional sortDirs
  let defaultDirValue := givenDirs.head?.getD defaultDir
  -- `list(sort_keys)` makes a new list
  let resultKeys ← alloc givenKeys
  let resultDirs ← (if givenDirs = [] then alloc (givenKeys.map fun _ => defaultDirValue)
    else checkedDirs givenDirs)
  padDirs resultKeys resultDirs defaultDirValue givenKeys.length
  if (← read resultKeys).length < (← read resultDirs).length then
    throw (.raised .invalidInput
      "Invalid input received: Sort direction size exceeds sort key size")
  (← read defaultKeys).forM (includeDefault resultKeys resultDirs defaultDirValue)
  pure (resultKeys, resultDirs)

/-! ## What it computes -/

section Runs

variable {h h' : ListHeap String} {dirs : List String} {dir : String} {a b : Nat}

theorem ensures_readOptional {a : Option Nat} {Q : List String → ListHeap String → Prop}
    {E : Exc → ListHeap String → Prop} :
    Ensures (readOptional a) h Q E ↔ Q ((a.map h.cell).getD []) h := by
  cases a with
  | none => exact ensures_pure _ _
  | some a => exact ensures_read

/-- A new list with the directions, or the first bad one is met. -/
theorem ensures_checkedDirs : Ensures (checkedDirs dirs) h
    (fun b h' => b = h.next ∧ h' = h.put dirs ∧ ∀ dir ∈ dirs, dir ∈ ["asc", "desc"])
    (fun e h' => Keeps h h' ∧ (∃ dir ∈ dirs, dir ∉ ["asc", "desc"]) ∧
      e = .raised .invalidInput
        "Invalid input received: Unknown sort direction, must be 'asc' or 'desc'") := by
  unfold checkedDirs
  simp only [ensures_bind, ensures_alloc, ensures_pure, true_and]
  refine ensures_mono (ensures_forM_split
    (fun passed h' => h' = h.put passed ∧ ∀ dir ∈ passed, dir ∈ ["asc", "desc"])
    ⟨rfl, List.forall_mem_nil _⟩ ?_)
    (fun _ _ hAll => hAll) fun _ _ hError => hError
  rintro passed dir rest hSplit _ ⟨rfl, hPassed⟩
  by_cases hDir : dir ∈ ["asc", "desc"]
  · rw [if_neg (not_not.mpr hDir)]
    simp only [ensures_append]
    refine ⟨?_, ?_⟩
    · simp [ListHeap.put, ListHeap.add]
    · intro dir' hMem
      rcases List.mem_append.mp hMem with hOld | hNew
      · exact hPassed dir' hOld
      · exact List.mem_singleton.mp hNew ▸ hDir
  · rw [if_pos hDir, ensures_bind, ensures_throw]
    refine ⟨(Keeps.refl h).put, ⟨dir, ?_, hDir⟩, rfl⟩
    exact hSplit ▸ List.mem_append_right passed List.mem_cons_self

/-- The two lists that are returned are new ones, and have these elements so far. -/
structure Holds (h : ListHeap String) (a b : Nat) (keys dirs : List String)
    (h' : ListHeap String) : Prop where
  keeps : Keeps h h'
  le_keys : h.next ≤ a
  keys_lt : a < b
  lt_next : b < h'.next
  cell_keys : h'.cell a = keys
  cell_dirs : h'.cell b = dirs

namespace Holds

variable {keys : List String}

theorem new (h : ListHeap String) (keys dirs : List String) :
    Holds h h.next (h.next + 1) keys dirs ((h.put keys).put dirs) where
  keeps := (Keeps.refl h).put.put
  le_keys := le_rfl
  keys_lt := Nat.lt_succ_self _
  lt_next := Nat.lt_succ_self _
  cell_keys := by rw [put_cell_of_ne (Nat.lt_succ_self _).ne, put_cell_next]
  cell_dirs := put_cell_next

theorem append_keys (hHolds : Holds h a b keys dirs h') (key : String) :
    Holds h a b (keys ++ [key]) dirs (h'.add a [key]) where
  keeps := hHolds.keeps.add hHolds.le_keys
  le_keys := hHolds.le_keys
  keys_lt := hHolds.keys_lt
  lt_next := hHolds.lt_next
  cell_keys := by rw [add_cell_self, hHolds.cell_keys]
  cell_dirs := by rw [add_cell_of_ne hHolds.keys_lt.ne', hHolds.cell_dirs]

theorem append_dirs (hHolds : Holds h a b keys dirs h') (more : List String) :
    Holds h a b keys (dirs ++ more) (h'.add b more) where
  keeps := hHolds.keeps.add (hHolds.le_keys.trans hHolds.keys_lt.le)
  le_keys := hHolds.le_keys
  keys_lt := hHolds.keys_lt
  lt_next := hHolds.lt_next
  cell_keys := by rw [add_cell_of_ne hHolds.keys_lt.ne, hHolds.cell_keys]
  cell_dirs := by rw [add_cell_self, hHolds.cell_dirs]

end Holds

/-- After enough rounds the directions are as many as the keys. -/
theorem ensures_padDirs {keys : List String} {rounds : Nat} {E : Exc → ListHeap String → Prop}
    (hHolds : Holds h a b keys dirs h') (hRounds : keys.length - dirs.length ≤ rounds) :
    Ensures (padDirs a b dir rounds) h'
      (fun _ => Holds h a b keys (dirs ++ List.replicate (keys.length - dirs.length) dir)) E := by
  induction rounds generalizing h' dirs with
  | zero =>
    rw [padDirs, ensures_pure, Nat.le_zero.mp hRounds, List.replicate_zero, List.append_nil]
    exact hHolds
  | succ rounds ih =>
    rw [padDirs]
    simp only [ensures_bind, ensures_read, hHolds.cell_keys, hHolds.cell_dirs]
    split
    · rename_i hMore
      rw [ensures_bind, ensures_append]
      have hLength : (dirs ++ [dir]).length = dirs.length + 1 := by simp
      have hLess : keys.length - (dirs ++ [dir]).length ≤ rounds := by omega
      refine ensures_mono (ih (hHolds.append_dirs [dir]) hLess) (fun _ h'' hPadded => ?_)
        fun _ _ he => he
      have hRest : keys.length - dirs.length = (keys.length - (dirs ++ [dir]).length) + 1 := by
        omega
      rwa [hRest, List.replicate_succ, List.append_cons]
    · rename_i hEnough
      rw [ensures_pure, Nat.sub_eq_zero_of_le (Nat.le_of_not_lt hEnough), List.replicate_zero,
        List.append_nil]
      exact hHolds

theorem ensures_includeDefaults {keys : List String} (defaultKeys : List String)
    {E : Exc → ListHeap String → Prop} (hHolds : Holds h a b keys dirs h') :
    Ensures (defaultKeys.forM (includeDefault a b dir)) h'
      (fun _ => Holds h a b (Listings.addDefaultKeys defaultKeys dir (keys, dirs)).1
        (Listings.addDefaultKeys defaultKeys dir (keys, dirs)).2) E := by
  refine ensures_forM_prefix (fun passed => Holds h a b
    (Listings.addDefaultKeys passed dir (keys, dirs)).1
    (Listings.addDefaultKeys passed dir (keys, dirs)).2) hHolds ?_
  intro key _ passed h'' hPassed
  have hStep : Listings.addDefaultKeys (passed ++ [key]) dir (keys, dirs) =
      (fun r : List String × List String =>
        if key ∈ r.1 then r else (r.1 ++ [key], r.2 ++ [dir]))
        (Listings.addDefaultKeys passed dir (keys, dirs)) := by
    rw [Listings.addDefaultKeys, List.foldl_append]
    rfl
  rw [hStep, includeDefault, ensures_bind, ensures_read, hPassed.cell_keys]
  dsimp only
  by_cases hKey : key ∈ (Listings.addDefaultKeys passed dir (keys, dirs)).1
  · rw [if_pos hKey, if_pos hKey]
    exact hPassed
  · rw [if_neg hKey, if_neg hKey, ensures_bind, ensures_append, ensures_append]
    exact (hPassed.append_keys key).append_dirs [dir]

/-- The directions before they are made as many as the keys. -/
theorem ensures_firstDirs {givenKeys givenDirs : List String} :
    Ensures (if givenDirs = [] then alloc (givenKeys.map fun _ => dir) else checkedDirs givenDirs) h
      (fun b h' => b = h.next ∧
        h' = h.put (if givenDirs = [] then givenKeys.map fun _ => dir else givenDirs) ∧
        ∀ dir ∈ givenDirs, dir ∈ ["asc", "desc"])
      (fun e h' => Keeps h h' ∧ (∃ dir ∈ givenDirs, dir ∉ ["asc", "desc"]) ∧
        e = .raised .invalidInput
          "Invalid input received: Unknown sort direction, must be 'asc' or 'desc'") := by
  split
  · rename_i hNone
    rw [ensures_alloc, hNone]
    exact ⟨rfl, rfl, nofun⟩
  · exact ensures_checkedDirs

/-- The function gives what it gives for the contents of its arguments. The lists that existed are
as they were. -/
theorem ensures_processSortParams (sortKeys sortDirs : Option Nat) (defaultDir : String)
    {defaultKeys : Nat} (hDefaults : defaultKeys < h.next) :
    Ensures (processSortParams sortKeys sortDirs defaultKeys defaultDir) h
      (fun r h' => Keeps h h' ∧
        Listings.processSortParams ((sortKeys.map h.cell).getD []) ((sortDirs.map h.cell).getD [])
          (h.cell defaultKeys) defaultDir = .ok (h'.cell r.1, h'.cell r.2))
      (fun e h' => Keeps h h' ∧
        Listings.processSortParams ((sortKeys.map h.cell).getD []) ((sortDirs.map h.cell).getD [])
          (h.cell defaultKeys) defaultDir = .error e) := by
  unfold processSortParams Listings.processSortParams
  simp only [ensures_bind, ensures_readOptional, ensures_alloc]
  generalize (sortKeys.map h.cell).getD [] = givenKeys
  generalize (sortDirs.map h.cell).getD [] = givenDirs
  refine ensures_mono ensures_firstDirs ?_ ?_
  · rintro _ _ ⟨rfl, rfl, hValid⟩
    have hNone : ¬ (givenDirs.any (· ∉ ["asc", "desc"])) = true := by
      rw [List.any_eq_true]
      rintro ⟨dir, hMem, hBad⟩
      exact of_decide_eq_true hBad (hValid dir hMem)
    rw [if_neg hNone]
    refine ensures_mono (ensures_padDirs (.new h givenKeys _) (Nat.sub_le _ _))
      (fun _ h' hPadded => ?_) fun _ _ he => he
    change Holds h h.next (h.next + 1) givenKeys
      (Listings.resultDirs givenKeys givenDirs (givenDirs.head?.getD defaultDir)) h' at hPadded
    generalize Listings.resultDirs givenKeys givenDirs (givenDirs.head?.getD defaultDir) = dirs
      at hPadded ⊢
    simp only [ensures_read, put_next, hPadded.cell_keys, hPadded.cell_dirs]
    by_cases hExceeds : givenKeys.length < dirs.length
    · rw [if_pos hExceeds, if_pos hExceeds, ensures_bind, ensures_throw]
      exact ⟨hPadded.keeps, rfl⟩
    · rw [if_neg hExceeds, if_neg hExceeds]
      simp only [ensures_bind, ensures_read, hPadded.keeps.cell_eq _ hDefaults, ensures_pure]
      refine ensures_mono (ensures_includeDefaults (h.cell defaultKeys) hPadded)
        (fun _ h'' hIncluded => ⟨hIncluded.keeps, ?_⟩) fun _ _ he => he
      rw [hIncluded.cell_keys, hIncluded.cell_dirs]
  · rintro _ h' ⟨hKeeps, ⟨dir, hMem, hBad⟩, rfl⟩
    have hAny : (givenDirs.any (· ∉ ["asc", "desc"])) = true :=
      List.any_eq_true.mpr ⟨dir, hMem, decide_eq_true hBad⟩
    rw [if_pos hAny]
    exact ⟨(Keeps.refl h).put.trans hKeeps, rfl⟩

end Runs

/-! ## The keys and the directions -/

/-- The default keys that are not among the given ones, each once. -/
def missingKeys (givenKeys defaultKeys : List String) : List String :=
  (defaultKeys.filter (· ∉ givenKeys)).eraseDups

/-- A direction is unknown, or there are more directions than keys. -/
def Invalid (givenKeys givenDirs : List String) : Prop :=
  (∃ dir ∈ givenDirs, dir ≠ "asc" ∧ dir ≠ "desc") ∨ givenKeys.length < givenDirs.length

/-- What a call with these keys and directions should come to. -/
structure Processed (givenKeys givenDirs defaultKeys : List String) (defaultDir : String)
    (answer : Except Exc (List String × List String)) : Prop where
  raises_iff : (∃ reason, answer = .error (.raised .invalidInput reason)) ↔
    Invalid givenKeys givenDirs
  returns : ¬ Invalid givenKeys givenDirs → ∃ keys dirs, answer = .ok (keys, dirs) ∧
    keys.length = dirs.length ∧ keys = givenKeys ++ missingKeys givenKeys defaultKeys ∧
    dirs = givenDirs ++
      List.replicate (keys.length - givenDirs.length) (givenDirs.head?.getD defaultDir)
  id_mem : "id" ∈ defaultKeys → ∀ keys dirs, answer = .ok (keys, dirs) → "id" ∈ keys

section Pure

variable {givenKeys givenDirs defaultKeys : List String} {defaultDir dir : String}

theorem missingKeys_of_mem {key : String} (h : key ∈ givenKeys) (defaultKeys : List String) :
    missingKeys givenKeys (key :: defaultKeys) = missingKeys givenKeys defaultKeys := by
  unfold missingKeys
  rw [List.filter_cons_of_neg (by simpa using h)]

theorem missingKeys_of_not_mem {key : String} (h : key ∉ givenKeys) (defaultKeys : List String) :
    missingKeys givenKeys (key :: defaultKeys) =
      key :: missingKeys (givenKeys ++ [key]) defaultKeys := by
  unfold missingKeys
  rw [List.filter_cons_of_pos (by simpa using h), List.eraseDups_cons, List.filter_filter]
  congr 2
  refine List.filter_congr fun other _ => Bool.eq_iff_iff.mpr ?_
  simp [and_comm]

/-- The loop adds the missing keys, and a default direction for each of them. -/
theorem addDefaultKeys_eq (defaultKeys ks ds : List String) (dir : String) :
    Listings.addDefaultKeys defaultKeys dir (ks, ds) =
      (ks ++ missingKeys ks defaultKeys,
        ds ++ List.replicate (missingKeys ks defaultKeys).length dir) := by
  induction defaultKeys generalizing ks ds with
  | nil => simp [Listings.addDefaultKeys, missingKeys]
  | cons key defaultKeys ih =>
    have hStep : Listings.addDefaultKeys (key :: defaultKeys) dir (ks, ds) =
        Listings.addDefaultKeys defaultKeys dir
          (if key ∈ ks then (ks, ds) else (ks ++ [key], ds ++ [dir])) := rfl
    rw [hStep]
    by_cases hKey : key ∈ ks
    · rw [if_pos hKey, ih, missingKeys_of_mem hKey]
    · rw [if_neg hKey, ih, missingKeys_of_not_mem hKey, List.length_cons, List.replicate_succ,
        List.append_assoc, List.append_assoc, List.singleton_append, List.singleton_append]

/-- As long as there are not more directions than keys, the first ones are filled up. -/
theorem resultDirs_eq (h : givenDirs.length ≤ givenKeys.length) (dir : String) :
    Listings.resultDirs givenKeys givenDirs dir =
      givenDirs ++ List.replicate (givenKeys.length - givenDirs.length) dir := by
  unfold Listings.resultDirs
  dsimp only
  split
  · rename_i hNone
    subst hNone
    simp
  · rfl

theorem exceeds_iff (hValid : ∀ dir ∈ givenDirs, dir = "asc" ∨ dir = "desc") (dir : String) :
    givenKeys.length < (Listings.resultDirs givenKeys givenDirs dir).length ↔
      Invalid givenKeys givenDirs := by
  have hKnown : ¬ ∃ dir ∈ givenDirs, dir ≠ "asc" ∧ dir ≠ "desc" := by
    rintro ⟨dir, hMem, hAsc, hDesc⟩
    exact (hValid dir hMem).elim hAsc hDesc
  unfold Invalid
  rw [or_iff_right hKnown]
  constructor
  · intro hExceeds
    by_contra hFits
    have hLe := Nat.le_of_not_lt hFits
    rw [resultDirs_eq hLe, List.length_append, List.length_replicate] at hExceeds
    omega
  · intro hExceeds
    exact hExceeds.trans_le (Listings.prefix_resultDirs givenKeys givenDirs dir).length_le

theorem processSortParams_of_invalid (h : Invalid givenKeys givenDirs) :
    ∃ reason, Listings.processSortParams givenKeys givenDirs defaultKeys defaultDir =
      .error (.raised .invalidInput reason) := by
  unfold Listings.processSortParams
  dsimp only
  split
  · exact ⟨_, rfl⟩
  · rename_i hNone
    have hValid : ∀ dir ∈ givenDirs, dir = "asc" ∨ dir = "desc" := by
      simpa [or_iff_not_imp_left] using hNone
    rw [if_pos ((exceeds_iff hValid _).mpr h)]
    exact ⟨_, rfl⟩

theorem processSortParams_of_not_invalid (h : ¬ Invalid givenKeys givenDirs) :
    Listings.processSortParams givenKeys givenDirs defaultKeys defaultDir =
      .ok (givenKeys ++ missingKeys givenKeys defaultKeys,
        givenDirs ++ List.replicate (givenKeys.length - givenDirs.length +
          (missingKeys givenKeys defaultKeys).length) (givenDirs.head?.getD defaultDir)) := by
  have hValid : ∀ dir ∈ givenDirs, dir = "asc" ∨ dir = "desc" := by
    intro dir hMem
    by_contra hUnknown
    exact h (Or.inl ⟨dir, hMem, not_or.mp hUnknown⟩)
  have hNone : ¬ (givenDirs.any (· ∉ ["asc", "desc"])) = true := by
    simpa [or_iff_not_imp_left] using hValid
  have hLe : givenDirs.length ≤ givenKeys.length :=
    Nat.le_of_not_lt fun hExceeds => h (Or.inr hExceeds)
  unfold Listings.processSortParams
  dsimp only
  rw [if_neg hNone, if_neg fun hExceeds => h ((exceeds_iff hValid _).mp hExceeds),
    resultDirs_eq hLe, addDefaultKeys_eq, List.append_assoc, ← List.replicate_add]

/-- `_process_sort_params` of the contents of the lists. -/
theorem processed_processSortParams (givenKeys givenDirs defaultKeys : List String)
    (defaultDir : String) : Processed givenKeys givenDirs defaultKeys defaultDir
      (Listings.processSortParams givenKeys givenDirs defaultKeys defaultDir) where
  raises_iff := by
    refine ⟨?_, processSortParams_of_invalid⟩
    rintro ⟨reason, hRaised⟩
    by_contra hValid
    rw [processSortParams_of_not_invalid hValid] at hRaised
    cases hRaised
  returns hValid := by
    refine ⟨_, _, processSortParams_of_not_invalid hValid, ?_, rfl, ?_⟩
    all_goals
      have hLe : givenDirs.length ≤ givenKeys.length :=
        Nat.le_of_not_lt fun hExceeds => hValid (Or.inr hExceeds)
      simp only [List.length_append, List.length_replicate]
    · omega
    · congr 2
      omega
  id_mem hId keys dirs hReturned :=
    (Listings.processSortParams_spec hReturned).2.2.2.1 "id" hId

end Pure

/-! ## Calls one after the other -/

/-- The heap when the function has been defined, with the list that is its default argument. -/
structure SharedDefaults where
  heap : ListHeap String
  defaultKeys : Nat
  lt_next : defaultKeys < heap.next
  cell_eq : heap.cell defaultKeys = ["created_at", "id"]

/-- The arguments of a call, the lists among those that exist. -/
structure Call (next : Nat) where
  sortKeys : Option (Fin next)
  sortDirs : Option (Fin next)
  /-- `none` if the argument is left to its default, and so the next one. -/
  defaultKeys : Option (Fin next)
  defaultDir : Option String

/-- A call that has been made, in its heap, and what is returned as it is then. -/
structure Done where
  before : ListHeap String
  call : Call before.next
  answer : Except Exc (List String × List String)
  after : ListHeap String

section Calls

variable (m : SharedDefaults)

/-- The list of default keys of a call. -/
def defaultKeysOf {next : Nat} (call : Call next) : Nat :=
  (call.defaultKeys.map Fin.val).getD m.defaultKeys

/-- The elements of an argument; `None` has none. -/
def elements {next : Nat} (h : ListHeap String) (a : Option (Fin next)) : List String :=
  (a.map fun a => h.cell a.val).getD []

def perform (h : ListHeap String) (call : Call h.next) : Done :=
  match (processSortParams (call.sortKeys.map Fin.val) (call.sortDirs.map Fin.val)
    (defaultKeysOf m call) (call.defaultDir.getD "desc")).run h with
  | .ok r h' => ⟨h, call, .ok (h'.cell r.1, h'.cell r.2), h'⟩
  | .error e h' => ⟨h, call, .error e, h'⟩

/-- Calls that may pass any list that exists by then, also one that was returned before. -/
def runCalls : ListHeap String → List ((h : ListHeap String) → Call h.next) → List Done
  | _, [] => []
  | h, call :: calls => perform m h (call h) :: runCalls (perform m h (call h)).after calls

/-- The call found the lists of the module as they were made, left all lists as they were, and
returned what it should for the contents of its arguments. -/
structure Done.Correct (done : Done) : Prop where
  found : Keeps m.heap done.before
  left : Keeps done.before done.after
  processed : Processed (elements done.before done.call.sortKeys)
    (elements done.before done.call.sortDirs) (done.before.cell (defaultKeysOf m done.call))
    (done.call.defaultDir.getD "desc") done.answer
  /-- For the default arguments `id` is among the keys. -/
  default_id : done.call.defaultKeys = none → ∀ keys dirs, done.answer = .ok (keys, dirs) →
    "id" ∈ keys

end Calls

section Sequences

variable {m : SharedDefaults} {h : ListHeap String}

theorem defaultKeysOf_lt (hFound : Keeps m.heap h) (call : Call h.next) :
    defaultKeysOf m call < h.next := by
  unfold defaultKeysOf
  cases call.defaultKeys with
  | none => exact m.lt_next.trans_le hFound.next_le
  | some a => exact a.isLt

/-- One call, in a heap where the lists of the module are as they were made. -/
theorem correct_perform (hFound : Keeps m.heap h) (call : Call h.next) :
    (perform m h call).before = h ∧ (perform m h call).Correct m := by
  have hRun := ensures_processSortParams (call.sortKeys.map Fin.val) (call.sortDirs.map Fin.val)
    (call.defaultDir.getD "desc") (defaultKeysOf_lt hFound call)
  rw [Option.map_map, Option.map_map] at hRun
  have hProcessed := processed_processSortParams (elements h call.sortKeys)
    (elements h call.sortDirs) (h.cell (defaultKeysOf m call)) (call.defaultDir.getD "desc")
  have hDefault : call.defaultKeys = none → "id" ∈ h.cell (defaultKeysOf m call) := by
    intro hNone
    rw [defaultKeysOf, hNone, Option.map_none, Option.getD_none, hFound.cell_eq _ m.lt_next,
      m.cell_eq]
    exact List.mem_cons_of_mem _ List.mem_cons_self
  unfold Ensures at hRun
  split at hRun
  · rename_i r h' hOk
    have hDone : perform m h call = ⟨h, call, .ok (h'.cell r.1, h'.cell r.2), h'⟩ := by
      rw [perform, hOk]
    have hReturned := hRun.2 ▸ hProcessed
    rw [hDone]
    exact ⟨rfl, hFound, hRun.1, hReturned, fun hNone => hReturned.id_mem (hDefault hNone)⟩
  · rename_i e h' hError
    have hDone : perform m h call = ⟨h, call, .error e, h'⟩ := by
      rw [perform, hError]
    have hRaised := hRun.2 ▸ hProcessed
    rw [hDone]
    exact ⟨rfl, hFound, hRun.1, hRaised, fun hNone => hRaised.id_mem (hDefault hNone)⟩

/-- Calls in any number and with any arguments come to what they should, each for itself, and what
was returned stays as it was. -/
theorem processed_runCalls (m : SharedDefaults)
    (calls : List ((h : ListHeap String) → Call h.next)) :
    (∀ done ∈ runCalls m m.heap calls, done.Correct m) ∧
      (runCalls m m.heap calls).Pairwise fun done later => Keeps done.after later.after := by
  have hAll : ∀ h, Keeps m.heap h →
      (∀ done ∈ runCalls m h calls, done.Correct m ∧ Keeps h done.after) ∧
        (runCalls m h calls).Pairwise fun done later => Keeps done.after later.after := by
    induction calls with
    | nil => exact fun _ _ => ⟨List.forall_mem_nil _, .nil⟩
    | cons call calls ih =>
      intro h hFound
      obtain ⟨hBefore, hCorrect⟩ := correct_perform hFound (call h)
      have hLeft := hCorrect.left
      rw [hBefore] at hLeft
      obtain ⟨hRest, hPairwise⟩ := ih _ (hFound.trans hLeft)
      refine ⟨List.forall_mem_cons.mpr ⟨⟨hCorrect, hLeft⟩, fun done hDone => ?_⟩,
        List.pairwise_cons.mpr ⟨fun done hDone => (hRest done hDone).2, hPairwise⟩⟩
      exact ⟨(hRest done hDone).1, hLeft.trans (hRest done hDone).2⟩
  obtain ⟨hCorrect, hPairwise⟩ := hAll m.heap (.refl _)
  exact ⟨fun done hDone => (hCorrect done hDone).1, hPairwise⟩

end Sequences

/-- A module with no lists but the default argument. -/
def moduleDefaults : SharedDefaults where
  heap := ListHeap.empty.put ["created_at", "id"]
  defaultKeys := 0
  lt_next := Nat.zero_lt_one
  cell_eq := put_cell_next

/-- A call without arguments, and one whose sort keys are the list of keys that was returned. -/
def callsAgain : List ((h : ListHeap String) → Call h.next) :=
  [fun _ => ⟨none, none, none, none⟩,
    fun h => ⟨if hMade : 1 < h.next then some ⟨h.next - 2, by omega⟩ else none, none, none,
      some "asc"⟩]

theorem processed_runCalls_again :
    (runCalls moduleDefaults moduleDefaults.heap callsAgain).map Done.answer =
        [.ok (["created_at", "id"], ["desc", "desc"]),
          .ok (["created_at", "id"], ["asc", "asc"])] ∧
      ∀ done ∈ runCalls moduleDefaults moduleDefaults.heap callsAgain,
        done.Correct moduleDefaults :=
  ⟨rfl, (processed_runCalls moduleDefaults callsAgain).1⟩

end MasakariHA.SortParams
