import MasakariHA.Exception
import MasakariHA.Lib.ListHeap

/-!
# Methods and extensions of a resource

`Resource` of `api/openstack/wsgi.py`: the methods of its controller, the tables of the extensions
that are registered with it, and the resource that it inherits from.

* `registerExtensions`: the tables, whose lists are mutable;
* `getMethod`: the lookup of a request, which extends the list that it has found;
* `runRequests`: requests one after the other;
* `ownExtensions`: what is registered for a request, read off the registrations;
* `Undisturbed`: what requests should find and leave as it is, and `undisturbed_iff`: when they do.
-/

namespace MasakariHA.Api

open Lib Lib.ListHeap

/-! ## Requests -/

/-- A body, as far as `action_peek` looks into it. -/
inductive Body where
  | notJson
  | object (keys : List String)
  /-- A text or a list. -/
  | sized (length : Nat)
  /-- A number, a truth value or `null`. -/
  | unsized

/-- The only key of an object. -/
def Body.key : Body → Option String
  | .object [key] => some key
  | .notJson | .object _ | .sized _ | .unsized => none

def actionPeek : Body → Except Exc String
  | .notJson =>
    .error (.raised .malformedRequestBody "Malformed message body: cannot understand JSON")
  | .object [key] => .ok key
  | .object _ =>
    .error (.raised .malformedRequestBody "Malformed message body: too many body keys")
  | .sized length =>
    if length = 1 then .error (.other "AttributeError")
    else .error (.raised .malformedRequestBody "Malformed message body: too many body keys")
  | .unsized => .error (.other "TypeError")

structure ActionRequest where
  action : String
  body : Body

/-- The action that is asked for, where the controller has no method of that name. -/
def ActionRequest.actionName (request : ActionRequest) : Option String :=
  if request.action = "action" then request.body.key else some request.action

def routesMethods : List String := ["create", "delete", "show", "update"]

/-! ## Resources -/

structure Resource (μ : Type) where
  hasController : Bool
  /-- The attributes of the controller; without one, those of the resource itself. -/
  attributes : String → Option μ
  wsgiActions : List (String × μ)

/-- Resources in the order in which they are made; each inherits from an earlier one or from
none. -/
structure Resources (μ : Type) where
  resource : Nat → Resource μ
  inherits : Nat → Option Nat
  inherits_lt : ∀ {r parent}, inherits r = some parent → parent < r

inductive ExtensionTable where
  | wsgiExtensions
  | wsgiActionExtensions
  deriving DecidableEq, Repr

/-- A place in the tables. -/
structure Slot where
  resource : Nat
  table : ExtensionTable
  name : String
  deriving DecidableEq, Repr

/-- The tables; no list stands at two places. -/
structure Tables (ε : Type) where
  heap : ListHeap ε
  table : Slot → Option Nat
  table_lt : ∀ {slot a}, table slot = some a → a < heap.next
  table_inj : ∀ {slot slot' a}, table slot = some a → table slot' = some a → slot = slot'

namespace Tables

variable {ε : Type}

def empty : Tables ε := ⟨.empty, fun _ => none, nofun, nofun⟩

/-- The lists at the places, in a heap. -/
def contentsIn (t : Tables ε) (h : ListHeap ε) (slot : Slot) : Option (List ε) :=
  (t.table slot).map h.cell

def contents (t : Tables ε) : Slot → Option (List ε) := t.contentsIn t.heap

/-- A list is made for the place if there is none, and the extension appended. -/
def register (t : Tables ε) (slot : Slot) (extension : ε) : Tables ε :=
  match h : t.table slot with
  | some a => ⟨t.heap.add a [extension], t.table, t.table_lt, t.table_inj⟩
  | none =>
    { heap := t.heap.put [extension]
      table := Function.update t.table slot (some t.heap.next)
      table_lt := by
        intro slot' a ha
        by_cases hs : slot' = slot
        · subst hs
          rw [Function.update_self] at ha
          cases ha
          exact Nat.lt_succ_self _
        · rw [Function.update_of_ne hs] at ha
          exact (t.table_lt ha).trans (Nat.lt_succ_self _)
      table_inj := by
        intro slot' slot'' a ha ha'
        by_cases hs : slot' = slot <;> by_cases hs' : slot'' = slot
        · rw [hs, hs']
        · subst hs
          rw [Function.update_self, Option.some.injEq] at ha
          rw [Function.update_of_ne hs', ← ha] at ha'
          exact absurd (t.table_lt ha') (Nat.lt_irrefl _)
        · subst hs'
          rw [Function.update_self, Option.some.injEq] at ha'
          rw [Function.update_of_ne hs, ← ha'] at ha
          exact absurd (t.table_lt ha) (Nat.lt_irrefl _)
        · rw [Function.update_of_ne hs] at ha
          rw [Function.update_of_ne hs'] at ha'
          exact t.table_inj ha ha' }

/-- `register_extensions`, for the names of methods and actions with the methods themselves. -/
def registerExtensions (t : Tables ε) (r : Nat)
    (extensions : List (String × Option String × ε)) : Tables ε :=
  extensions.foldl
    (fun t (methodName, actionName, extension) =>
      match actionName.filter (· ≠ "") with
      | some actionName => t.register ⟨r, .wsgiActionExtensions, actionName⟩ extension
      | none => t.register ⟨r, .wsgiExtensions, methodName⟩ extension) t

/-- What is registered is added to what stands at the place. -/
theorem contents_register (t : Tables ε) (slot : Slot) (extension : ε) :
    (t.register slot extension).contents =
      Function.update t.contents slot (some ((t.contents slot).getD [] ++ [extension])) := by
  funext slot'
  unfold register contents contentsIn
  split
  · rename_i a ha
    by_cases hs : slot' = slot
    · subst hs
      rw [Function.update_self, ha, Option.map_some, Option.map_some, Option.getD_some,
        add_cell_self]
    · rw [Function.update_of_ne hs]
      cases hTable : t.table slot' with
      | none => rfl
      | some b =>
        have hNe : b ≠ a := by
          rintro rfl
          exact hs (t.table_inj hTable ha)
        rw [Option.map_some, Option.map_some, add_cell_of_ne hNe]
  · rename_i hNone
    dsimp only
    by_cases hs : slot' = slot
    · subst hs
      rw [Function.update_self, Function.update_self, hNone, Option.map_some, Option.map_none,
        Option.getD_none, put_cell_next, List.nil_append]
    · rw [Function.update_of_ne hs, Function.update_of_ne hs]
      cases hTable : t.table slot' with
      | none => rfl
      | some b =>
        rw [Option.map_some, Option.map_some, put_cell_of_ne (t.table_lt hTable).ne]

end Tables

/-! ## The lookup -/

section Lookup

variable {μ ε : Type} (R : Resources μ) (request : ActionRequest)

/-- The method for a request, and the place of its extensions. -/
def lookupMethod (r : Nat) : Except Exc (μ × Slot) :=
  match (R.resource r).attributes request.action with
  | some meth => .ok (meth, ⟨r, .wsgiExtensions, request.action⟩)
  | none =>
    if (R.resource r).wsgiActions.isEmpty ∨ request.action ∉ routesMethods ++ ["action"] then
      if (R.resource r).hasController then .error (.other "HTTPMethodNotAllowed")
      else .error (.other "AttributeError")
    else do
      let actionName ←
        (if request.action = "action" then actionPeek request.body else .ok request.action)
      match (R.resource r).wsgiActions.lookup actionName with
      | some meth => .ok (meth, ⟨r, .wsgiActionExtensions, actionName⟩)
      | none => .error (.other "KeyError")

/-- `_get_method`: the list at the place, or the new list that is the default of `get`. -/
def getMethodOf (table : Slot → Option Nat) (r : Nat) : EStateM Exc (ListHeap ε) (μ × Nat) := do
  let (meth, slot) ← MonadExcept.ofExcept (lookupMethod R request r)
  let default ← alloc []
  pure (meth, (table slot).getD default)

/-- `get_method`. -/
def getMethod (table : Slot → Option Nat) (r : Nat) : EStateM Exc (ListHeap ε) (μ × Nat) := do
  let (meth, extensions) ← getMethodOf R request table r
  match _h : R.inherits r with
  | none => pure (meth, extensions)
  | some parent =>
    let (_, parentExt) ← getMethod table parent
    extend extensions (← read parentExt)
    pure (meth, extensions)
termination_by r
decreasing_by exact R.inherits_lt _h

end Lookup

/-! ## Requests one after the other -/

section Runs

variable {μ ε : Type} (R : Resources μ) (t : Tables ε)

/-- A request to a resource: what is found, with the list as it is then, and the heap after it. -/
def serve (h : ListHeap ε) (q : Nat × ActionRequest) : Except Exc (μ × List ε) × ListHeap ε :=
  match (getMethod R q.2 t.table q.1).run h with
  | .ok (meth, extensions) h' => (.ok (meth, h'.cell extensions), h')
  | .error e h' => (.error e, h')

def runRequests : ListHeap ε → List (Nat × ActionRequest) →
    List (Except Exc (μ × List ε) × ListHeap ε)
  | _, [] => []
  | h, q :: requests => serve R t h q :: runRequests (serve R t h q).2 requests

/-- The list of a resource itself for a request. -/
def stored (request : ActionRequest) (r : Nat) : List ε :=
  match lookupMethod R request r with
  | .ok (_, slot) => (t.contents slot).getD []
  | .error _ => []

/-- An answer with the own extensions of the resource, followed by those of the parent. -/
def expected (own : Nat → List ε) (request : ActionRequest) (r : Nat) :
    Except Exc (μ × List ε) := do
  let (meth, _) ← lookupMethod R request r
  match _h : R.inherits r with
  | none => pure (meth, own r)
  | some parent =>
    let (_, parentExt) ← expected own request parent
    pure (meth, own r ++ parentExt)
termination_by r
decreasing_by exact R.inherits_lt _h

/-- A resource with the ones it inherits from. -/
def chain (r : Nat) : List Nat :=
  r :: match _h : R.inherits r with
    | none => []
    | some parent => chain parent
termination_by r
decreasing_by exact R.inherits_lt _h

/-- The request is one that all of these resources have a method for, one of them has a list for it,
and one that it inherits from has something in its list. -/
def Grows (q : Nat × ActionRequest) : Prop :=
  (∀ x ∈ chain R q.1, ∃ found, lookupMethod R q.2 x = .ok found) ∧
    ∃ x ∈ chain R q.1,
      (∃ meth slot, lookupMethod R q.2 x = .ok (meth, slot) ∧ (t.table slot).isSome = true) ∧
      ∃ parent, R.inherits x = some parent ∧
        ∃ y ∈ chain R parent, stored R t q.2 y ≠ []

end Runs

/-! ## One request -/

section Serve

variable {μ ε : Type} {R : Resources μ} {t : Tables ε} {request : ActionRequest} {r parent : Nat}

theorem chain_none (h : R.inherits r = none) : chain R r = [r] := by
  rw [chain]
  split
  · rfl
  · rename_i parent hParent
    rw [h] at hParent
    cases hParent

theorem chain_some (h : R.inherits r = some parent) : chain R r = r :: chain R parent := by
  rw [chain]
  split
  · rename_i hNone
    rw [h] at hNone
    cases hNone
  · rename_i parent' hParent
    rw [h] at hParent
    cases hParent
    rfl

/-- The induction over a resource and the ones it inherits from. -/
theorem inherits_induction {P : Nat → Prop} (root : ∀ r, R.inherits r = none → P r)
    (child : ∀ r parent, R.inherits r = some parent → P parent → P r) (r : Nat) : P r := by
  induction r using Nat.strongRecOn with
  | ind r ih =>
    cases h : R.inherits r with
    | none => exact root r h
    | some parent => exact child r parent h (ih parent (R.inherits_lt h))

theorem le_of_mem_chain {x : Nat} (h : x ∈ chain R r) : x ≤ r := by
  induction r using inherits_induction (R := R) with
  | root r hRoot =>
    rw [chain_none hRoot, List.mem_singleton] at h
    exact h.le
  | child r parent hParent ih =>
    rw [chain_some hParent] at h
    rcases List.mem_cons.mp h with rfl | hMem
    · exact le_rfl
    · exact (ih hMem).trans (R.inherits_lt hParent).le

theorem getMethod_none {table : Slot → Option Nat} (h : R.inherits r = none) :
    (getMethod R request table r : EStateM Exc (ListHeap ε) (μ × Nat)) =
      getMethodOf R request table r >>= pure := by
  rw [getMethod]
  refine congrArg _ (funext fun ⟨meth, extensions⟩ => ?_)
  dsimp only
  split
  · rfl
  · rename_i parent hParent
    rw [h] at hParent
    cases hParent

theorem getMethod_some {table : Slot → Option Nat} (h : R.inherits r = some parent) :
    (getMethod R request table r : EStateM Exc (ListHeap ε) (μ × Nat)) = (do
      let (meth, extensions) ← getMethodOf R request table r
      let (_, parentExt) ← getMethod R request table parent
      extend extensions (← read parentExt)
      pure (meth, extensions)) := by
  rw [getMethod]
  refine congrArg _ (funext fun ⟨meth, extensions⟩ => ?_)
  dsimp only
  split
  · rename_i hNone
    rw [h] at hNone
    cases hNone
  · rename_i parent' hParent
    rw [h] at hParent
    cases hParent
    rfl

end Serve

section Expected

variable {μ ε : Type} {R : Resources μ} {own : Nat → List ε} {request : ActionRequest}
  {r parent : Nat}

theorem expected_none (h : R.inherits r = none) : expected R own request r =
    (lookupMethod R request r).map fun found => (found.1, own r) := by
  rw [expected]
  cases lookupMethod R request r with
  | error e => rfl
  | ok found =>
    obtain ⟨meth, slot⟩ := found
    simp only [bind, Except.bind]
    split
    · rfl
    · rename_i parent hParent
      rw [h] at hParent
      cases hParent

theorem expected_some (h : R.inherits r = some parent) : expected R own request r =
    match lookupMethod R request r with
    | .error e => .error e
    | .ok found => (expected R own request parent).map fun rest =>
        (found.1, own r ++ rest.2) := by
  rw [expected]
  cases lookupMethod R request r with
  | error e => rfl
  | ok found =>
    obtain ⟨meth, slot⟩ := found
    simp only [bind, Except.bind]
    split
    · rename_i hNone
      rw [h] at hNone
      cases hNone
    · rename_i parent' hParent
      rw [h] at hParent
      cases hParent
      cases expected R own request parent <;> rfl

/-- If all of the resources have a method, their extensions are found one after the other. -/
theorem expected_of_lookups (own : Nat → List ε)
    (h : ∀ x ∈ chain R r, ∃ found, lookupMethod R request x = .ok found) :
    ∃ meth, expected R own request r =
      .ok (meth, (chain R r).flatMap own) := by
  induction r using inherits_induction (R := R) with
  | root r hRoot =>
    rw [chain_none hRoot] at h ⊢
    obtain ⟨found, hFound⟩ := h r (List.mem_singleton_self r)
    rw [expected_none hRoot, hFound, List.flatMap_singleton]
    exact ⟨found.1, rfl⟩
  | child r parent hParent ih =>
    rw [chain_some hParent] at h ⊢
    obtain ⟨⟨found, hFound⟩, hRest⟩ := List.forall_mem_cons.mp h
    obtain ⟨meth, hMeth⟩ := ih hRest
    rw [expected_some hParent, hFound, hMeth, List.flatMap_cons]
    exact ⟨found.1, rfl⟩

theorem lookups_of_expected {answer : μ × List ε} (h : expected R own request r = .ok answer) :
    ∀ x ∈ chain R r, ∃ found, lookupMethod R request x = .ok found := by
  induction r using inherits_induction (R := R) generalizing answer with
  | root r hRoot =>
    rw [expected_none hRoot] at h
    rw [chain_none hRoot, List.forall_mem_singleton]
    cases hFound : lookupMethod R request r with
    | error e =>
      rw [hFound] at h
      cases h
    | ok found => exact ⟨found, rfl⟩
  | child r parent hParent ih =>
    rw [expected_some hParent] at h
    rw [chain_some hParent, List.forall_mem_cons]
    cases hFound : lookupMethod R request r with
    | error e =>
      rw [hFound] at h
      cases h
    | ok found =>
      rw [hFound] at h
      refine ⟨⟨found, rfl⟩, ?_⟩
      cases hRest : expected R own request parent with
      | error e =>
        rw [hRest] at h
        cases h
      | ok rest => exact ih hRest

theorem lookups_of_mem {x : Nat} (hx : x ∈ chain R r)
    (h : ∀ y ∈ chain R r, ∃ found, lookupMethod R request y = .ok found) :
    ∀ y ∈ chain R x, ∃ found, lookupMethod R request y = .ok found := by
  induction r using inherits_induction (R := R) with
  | root r hRoot =>
    rw [chain_none hRoot, List.mem_singleton] at hx
    exact hx ▸ h
  | child r parent hParent ih =>
    rw [chain_some hParent] at hx h
    rcases List.mem_cons.mp hx with rfl | hMem
    · rw [chain_some hParent]
      exact h
    · exact ih hMem (List.forall_mem_cons.mp h).2

/-- What is found for a resource in the chain. -/
theorem expected_of_mem (own : Nat → List ε) {x : Nat} (hx : x ∈ chain R r)
    (h : ∀ y ∈ chain R r, ∃ found, lookupMethod R request y = .ok found) :
    ∃ meth, expected R own request x =
      .ok (meth, (chain R x).flatMap own) :=
  expected_of_lookups own (lookups_of_mem hx h)

end Expected

section GetMethod

variable {μ ε : Type} {R : Resources μ} {t : Tables ε} {request : ActionRequest} {r parent : Nat}
  {h h' : ListHeap ε}

theorem resource_of_lookup {found : μ × Slot} (h : lookupMethod R request r = .ok found) :
    found.2.resource = r := by
  unfold lookupMethod at h
  split at h
  · cases h
    rfl
  split at h
  · split at h <;> cases h
  obtain ⟨actionName, -, h⟩ := except_bind_eq_ok.mp h
  split at h <;> cases h
  rfl

/-- The heap after a request that was answered: the lists of the resources in the chain are those
that are found for them, and all others are as they were. -/
structure Answered (R : Resources μ) (t : Tables ε) (request : ActionRequest) (r : Nat)
    (h h' : ListHeap ε) : Prop where
  next_le : h.next ≤ h'.next
  frame : ∀ b < h.next, (∀ x ∈ chain R r, ∀ found, lookupMethod R request x = .ok found →
    t.table found.2 ≠ some b) → h'.cell b = h.cell b
  touched : ∀ x ∈ chain R r, ∀ found b, lookupMethod R request x = .ok found →
    t.table found.2 = some b →
      ∃ meth, expected R (stored R t request) request x = .ok (meth, h'.cell b)

theorem contentsIn_put (hNext : t.heap.next ≤ h.next) (l : List ε) :
    t.contentsIn (h.put l) = t.contentsIn h := by
  funext slot
  unfold Tables.contentsIn
  cases hTable : t.table slot with
  | none => rfl
  | some a =>
    rw [Option.map_some, Option.map_some,
      put_cell_of_ne ((t.table_lt hTable).trans_le hNext).ne]

/-- The own list, or the new one. -/
theorem ensures_getMethodOf (hNext : t.heap.next ≤ h.next) (hSame : t.contentsIn h = t.contents) :
    Ensures (getMethodOf R request t.table r) h
      (fun found h' => h' = h.put [] ∧ h'.cell found.2 = stored R t request r ∧
        ∃ slot, lookupMethod R request r = .ok (found.1, slot) ∧
          found.2 = (t.table slot).getD h.next)
      (fun e h' => h' = h ∧ lookupMethod R request r = .error e) := by
  unfold getMethodOf stored
  rw [ensures_bind, ensures_ofExcept]
  cases hFound : lookupMethod R request r with
  | error e => exact ⟨rfl, rfl⟩
  | ok found =>
    obtain ⟨meth, slot⟩ := found
    simp only [ensures_bind, ensures_alloc, ensures_pure]
    refine ⟨trivial, ?_, slot, rfl, rfl⟩
    rw [← hSame, ← contentsIn_put hNext [], Tables.contentsIn]
    cases t.table slot with
    | none => rw [Option.getD_none, put_cell_next, Option.map_none, Option.getD_none]
    | some a => rw [Option.getD_some, Option.map_some, Option.getD_some]

end GetMethod

section Answers

variable {μ ε : Type} {R : Resources μ} {t : Tables ε} {request : ActionRequest}

/-- A list that is the place of one resource is not that of another. -/
theorem table_ne {x y a : Nat} {found found' : μ × Slot} (hNe : x ≠ y)
    (hFound : lookupMethod R request x = .ok found)
    (hFound' : lookupMethod R request y = .ok found') (ha : t.table found.2 = some a) :
    t.table found'.2 ≠ some a := by
  intro ha'
  have hSlot := t.table_inj ha ha'
  rw [← resource_of_lookup hFound, ← resource_of_lookup hFound', hSlot] at hNe
  exact hNe rfl

/-- The place of the own extensions is not touched for the parent. -/
theorem own_untouched {h : ListHeap ε} {r parent a : Nat} {meth : μ} {slot : Slot}
    (hNext : t.heap.next ≤ h.next) (hParent : R.inherits r = some parent)
    (hLookup : lookupMethod R request r = .ok (meth, slot))
    (ha : a = (t.table slot).getD h.next) :
    a < h.next + 1 ∧ ∀ x ∈ chain R parent, ∀ found, lookupMethod R request x = .ok found →
      t.table found.2 ≠ some a := by
  cases hTable : t.table slot with
  | none =>
    rw [hTable, Option.getD_none] at ha
    subst ha
    refine ⟨Nat.lt_succ_self _, fun x _ found _ hFresh => ?_⟩
    exact absurd ((t.table_lt hFresh).trans_le hNext) (Nat.lt_irrefl _)
  | some b =>
    rw [hTable, Option.getD_some] at ha
    subst ha
    refine ⟨((t.table_lt hTable).trans_le hNext).trans (Nat.lt_succ_self _), ?_⟩
    intro x hx found hFound
    have hLt : x < r := (le_of_mem_chain hx).trans_lt (R.inherits_lt hParent)
    exact table_ne hLt.ne' hLookup hFound hTable

/-- The extensions of the parent are added to the own ones. -/
theorem answered_child {h h' : ListHeap ε} {r parent a : Nat} {meth meth' : μ} {slot : Slot}
    {parentExt : List ε} (hNext : t.heap.next ≤ h.next) (hParent : R.inherits r = some parent)
    (hLookup : lookupMethod R request r = .ok (meth, slot))
    (ha : a = (t.table slot).getD h.next)
    (hOwn : (h.put []).cell a = stored R t request r)
    (hExpected : expected R (stored R t request) request parent = .ok (meth', parentExt))
    (hAnswered : Answered R t request parent (h.put []) h') :
    expected R (stored R t request) request r = .ok (meth, (h'.add a parentExt).cell a) ∧
      Answered R t request r h (h'.add a parentExt) := by
  obtain ⟨haLt, haFree⟩ := own_untouched hNext hParent hLookup ha
  have hFound : expected R (stored R t request) request r =
      .ok (meth, (h'.add a parentExt).cell a) := by
    rw [expected_some hParent, hLookup, hExpected, add_cell_self,
      hAnswered.frame a haLt haFree, hOwn]
    rfl
  refine ⟨hFound, ⟨(Nat.le_succ _).trans hAnswered.next_le, ?_, ?_⟩⟩
  · intro b hb hFree
    rw [chain_some hParent, List.forall_mem_cons] at hFree
    have hNe : b ≠ a := by
      rintro rfl
      cases hTable : t.table slot with
      | none =>
        rw [hTable, Option.getD_none] at ha
        exact hb.ne ha
      | some c =>
        rw [hTable, Option.getD_some] at ha
        exact hFree.1 _ hLookup (ha ▸ hTable)
    rw [add_cell_of_ne hNe, hAnswered.frame b (hb.trans (Nat.lt_succ_self _)) hFree.2,
      put_cell_of_ne hb.ne]
  · intro x hx found b hX hb
    rw [chain_some hParent] at hx
    rcases List.mem_cons.mp hx with rfl | hMem
    · rw [hLookup, Except.ok.injEq] at hX
      subst hX
      rw [hb, Option.getD_some] at ha
      subst ha
      exact ⟨meth, hFound⟩
    · have hNe : b ≠ a := by
        rintro rfl
        exact haFree x hMem found hX hb
      rw [add_cell_of_ne hNe]
      exact hAnswered.touched x hMem found b hX hb

theorem ensures_getMethod (request : ActionRequest) {h : ListHeap ε}
    (hNext : t.heap.next ≤ h.next) (hSame : t.contentsIn h = t.contents) (r : Nat) :
    Ensures (getMethod R request t.table r) h
      (fun found h' => expected R (stored R t request) request r = .ok (found.1, h'.cell found.2) ∧
        Answered R t request r h h')
      (fun e h' => expected R (stored R t request) request r = .error e ∧ Keeps h h') := by
  induction r using inherits_induction (R := R) generalizing h with
  | root r hRoot =>
    rw [getMethod_none hRoot, ensures_bind, expected_none hRoot]
    refine ensures_mono (ensures_getMethodOf hNext hSame) ?_ ?_
    · rintro ⟨meth, a⟩ h' ⟨rfl, hOwn, slot, hLookup, ha⟩
      rw [ensures_pure, hLookup, hOwn]
      refine ⟨rfl, Nat.le_succ _, fun b hb _ => put_cell_of_ne hb.ne, ?_⟩
      intro x hx found b hFound hb
      rw [chain_none hRoot, List.mem_singleton] at hx
      subst hx
      rw [hLookup, Except.ok.injEq] at hFound
      subst hFound
      rw [hb, Option.getD_some] at ha
      rw [expected_none hRoot, hLookup, ← hOwn, ha]
      exact ⟨meth, rfl⟩
    · rintro e h' ⟨rfl, hLookup⟩
      rw [hLookup]
      exact ⟨rfl, .refl _⟩
  | child r parent hParent ih =>
    rw [getMethod_some hParent, ensures_bind]
    refine ensures_mono (ensures_getMethodOf hNext hSame) ?_ ?_
    · rintro ⟨meth, a⟩ h' ⟨rfl, hOwn, slot, hLookup, ha⟩
      dsimp only
      rw [ensures_bind]
      have hSame' : t.contentsIn (h.put []) = t.contents := (contentsIn_put hNext []).trans hSame
      refine ensures_mono (ih (hNext.trans (Nat.le_succ _)) hSame') ?_ ?_
      · rintro ⟨meth', b⟩ h' ⟨hExpected, hAnswered⟩
        simp only [ensures_bind, ensures_read, ensures_extend, ensures_pure]
        exact answered_child hNext hParent hLookup ha hOwn hExpected hAnswered
      · rintro e h' ⟨hExpected, hKeeps⟩
        rw [expected_some hParent, hLookup, hExpected]
        exact ⟨rfl, (Keeps.refl h).put.trans hKeeps⟩
    · rintro e h' ⟨rfl, hLookup⟩
      rw [expected_some hParent, hLookup]
      exact ⟨rfl, .refl _⟩

end Answers

/-! ## Sequences of requests -/

section Sequences

variable {μ ε : Type} {R : Resources μ} {t : Tables ε} {h h' : ListHeap ε}

theorem own_of_lookup {request : ActionRequest} {x a : Nat} {found : μ × Slot}
    (hFound : lookupMethod R request x = .ok found) (ha : t.table found.2 = some a) :
    stored R t request x = t.heap.cell a := by
  rw [stored, hFound]
  change (t.contents found.2).getD [] = _
  rw [Tables.contents, Tables.contentsIn, ha]
  rfl

/-- The extensions of a resource are its own ones, if it inherits none. -/
theorem flatMap_chain {request : ActionRequest} {x : Nat} :
    (chain R x).flatMap (stored R t request) = stored R t request x ↔
      ∀ parent, R.inherits x = some parent →
        ∀ y ∈ chain R parent, stored R t request y = [] := by
  cases hParent : R.inherits x with
  | none =>
    rw [chain_none hParent, List.flatMap_singleton]
    exact iff_of_true rfl nofun
  | some parent =>
    rw [chain_some hParent, List.flatMap_cons, List.append_right_eq_self, List.flatMap_eq_nil_iff]
    simp only [Option.some.injEq, forall_eq']

theorem cell_eq_of_contentsIn {slot : Slot} {a : Nat} (hSame : t.contentsIn h = t.contents)
    (ha : t.table slot = some a) : h.cell a = t.heap.cell a := by
  have hAt := congrFun hSame slot
  rw [Tables.contents, Tables.contentsIn, Tables.contentsIn, ha] at hAt
  exact Option.some.inj hAt

/-- After an answered request a list that was looked up holds what its resource and those that it
inherits from have. -/
theorem cell_of_answered {request : ActionRequest} {r x a : Nat} {found : μ × Slot}
    (hLookups : ∀ x ∈ chain R r, ∃ found, lookupMethod R request x = .ok found)
    (hAnswered : Answered R t request r h h') (hx : x ∈ chain R r)
    (hFound : lookupMethod R request x = .ok found) (ha : t.table found.2 = some a) :
    h'.cell a = (chain R x).flatMap (stored R t request) := by
  obtain ⟨meth, hExpected⟩ := expected_of_mem (stored R t request) hx hLookups
  obtain ⟨meth', hExpected'⟩ := hAnswered.touched x hx found a hFound ha
  rw [hExpected] at hExpected'
  exact (Prod.mk.inj (Except.ok.inj hExpected')).2.symm

/-- After an answered request the tables are as before exactly if it did not extend one. -/
theorem contentsIn_of_answered {request : ActionRequest} {r : Nat} (hNext : t.heap.next ≤ h.next)
    (hSame : t.contentsIn h = t.contents)
    (hLookups : ∀ x ∈ chain R r, ∃ found, lookupMethod R request x = .ok found)
    (hAnswered : Answered R t request r h h') :
    t.contentsIn h' = t.contents ↔ ¬ Grows R t (r, request) := by
  constructor
  · rintro hKept ⟨-, x, hx, ⟨meth, slot, hFound, hList⟩, parent, hParent, y, hy, hExt⟩
    obtain ⟨a, ha⟩ := Option.isSome_iff_exists.mp hList
    have hAt := congrFun hKept slot
    rw [Tables.contents, Tables.contentsIn, Tables.contentsIn, ha, Option.map_some,
      Option.map_some, Option.some.injEq, cell_of_answered hLookups hAnswered hx hFound ha,
      ← own_of_lookup (t := t) hFound ha, flatMap_chain] at hAt
    exact hExt (hAt parent hParent y hy)
  · intro hExtends
    funext slot
    rw [Tables.contents, Tables.contentsIn, Tables.contentsIn]
    cases ha : t.table slot with
    | none => rfl
    | some a =>
      refine congrArg some ?_
      by_cases hPlace : ∃ x ∈ chain R r, ∃ found, lookupMethod R request x = .ok found ∧
          t.table found.2 = some a
      · obtain ⟨x, hx, found, hFound, hFoundAt⟩ := hPlace
        rw [cell_of_answered hLookups hAnswered hx hFound hFoundAt,
          ← own_of_lookup hFound hFoundAt, flatMap_chain]
        intro parent hParent y hy
        by_contra hExt
        exact hExtends ⟨hLookups, x, hx, ⟨found.1, found.2, hFound, by rw [hFoundAt]; rfl⟩, parent,
          hParent, y, hy, hExt⟩
      · have hLt : a < h.next := (t.table_lt ha).trans_le hNext
        rw [hAnswered.frame a hLt fun x hx found hFound hAt =>
          hPlace ⟨x, hx, found, hFound, hAt⟩, cell_eq_of_contentsIn hSame ha]

theorem contentsIn_of_keeps (hNext : t.heap.next ≤ h.next) (hKeeps : Keeps h h') :
    t.contentsIn h' = t.contentsIn h := by
  funext slot
  unfold Tables.contentsIn
  cases ha : t.table slot with
  | none => rfl
  | some a => exact congrArg some (hKeeps.cell_eq a ((t.table_lt ha).trans_le hNext))

/-- What one request finds, and when it leaves the tables as they are. -/
theorem serve_spec (hNext : t.heap.next ≤ h.next) (hSame : t.contentsIn h = t.contents)
    (q : Nat × ActionRequest) :
    (serve R t h q).1 = expected R (stored R t q.2) q.2 q.1 ∧ t.heap.next ≤ (serve R t h q).2.next ∧
      (t.contentsIn (serve R t h q).2 = t.contents ↔ ¬ Grows R t q) := by
  have hRun := ensures_getMethod (R := R) q.2 hNext hSame q.1
  unfold Ensures at hRun
  unfold serve
  split at hRun
  · rename_i found h' hOk
    obtain ⟨hExpected, hAnswered⟩ := hRun
    rw [hOk]
    exact ⟨hExpected.symm, hNext.trans hAnswered.next_le,
      contentsIn_of_answered hNext hSame (lookups_of_expected hExpected) hAnswered⟩
  · rename_i e h' hError
    obtain ⟨hExpected, hKeeps⟩ := hRun
    rw [hError]
    refine ⟨hExpected.symm, hNext.trans hKeeps.next_le, iff_of_true ?_ ?_⟩
    · exact (contentsIn_of_keeps hNext hKeeps).trans hSame
    · rintro ⟨hLookups, -⟩
      obtain ⟨meth, hOk⟩ := expected_of_lookups (stored R t q.2) hLookups
      rw [hExpected] at hOk
      cases hOk

/-- Requests find what the tables hold and leave them as they are, exactly if none of them lets a
list grow. -/
theorem forall_serve_iff (R : Resources μ) (t : Tables ε) (requests : List (Nat × ActionRequest)) :
    List.Forall₂ (fun q answer => answer.1 = expected R (stored R t q.2) q.2 q.1 ∧
        t.contentsIn answer.2 = t.contents) requests (runRequests R t t.heap requests) ↔
      ∀ q ∈ requests, ¬ Grows R t q := by
  have hAll : ∀ h : ListHeap ε, t.heap.next ≤ h.next → t.contentsIn h = t.contents →
      (List.Forall₂ (fun q answer => answer.1 = expected R (stored R t q.2) q.2 q.1 ∧
          t.contentsIn answer.2 = t.contents) requests (runRequests R t h requests) ↔
        ∀ q ∈ requests, ¬ Grows R t q) := by
    induction requests with
    | nil => exact fun _ _ _ => iff_of_true .nil nofun
    | cons q requests ih =>
      intro h hNext hSame
      obtain ⟨hAnswer, hNext', hKept⟩ := serve_spec (R := R) hNext hSame q
      rw [runRequests, List.forall₂_cons, List.forall_mem_cons, and_iff_right hAnswer, ← hKept]
      exact and_congr_right fun hSame' => ih _ hNext' hSame'
  exact hAll t.heap le_rfl rfl

end Sequences

/-! ## What is registered -/

/-- A call of `register_extensions`: the resource, and the names of methods and actions with the
methods themselves. -/
abbrev Registration (ε : Type) := Nat × List (String × Option String × ε)

namespace Tables

variable {ε : Type}

/-- The place that an extension is registered at. -/
def slotOf (r : Nat) (e : String × Option String × ε) : Slot :=
  match e.2.1.filter (· ≠ "") with
  | some actionName => ⟨r, .wsgiActionExtensions, actionName⟩
  | none => ⟨r, .wsgiExtensions, e.1⟩

/-- The extensions of the place, in the order of their registration. -/
def extensionsAt (slot : Slot) (r : Nat) (extensions : List (String × Option String × ε)) :
    List ε :=
  (extensions.filter (slotOf r · = slot)).map (·.2.2)

theorem registerExtensions_cons (t : Tables ε) (r : Nat) (e : String × Option String × ε)
    (extensions : List (String × Option String × ε)) :
    t.registerExtensions r (e :: extensions) =
      (t.register (slotOf r e) e.2.2).registerExtensions r extensions := by
  obtain ⟨methodName, actionName, extension⟩ := e
  unfold registerExtensions slotOf
  rw [List.foldl_cons]
  dsimp only
  cases actionName.filter (· ≠ "") <;> rfl

theorem contents_registerExtensions (t : Tables ε) (r : Nat)
    (extensions : List (String × Option String × ε)) (slot : Slot) :
    ((t.registerExtensions r extensions).contents slot).getD [] =
        (t.contents slot).getD [] ++ extensionsAt slot r extensions ∧
      (((t.registerExtensions r extensions).contents slot).isSome = true ↔
        (t.contents slot).isSome = true ∨ extensionsAt slot r extensions ≠ []) := by
  induction extensions generalizing t with
  | nil =>
    constructor
    · exact (List.append_nil _).symm
    · exact (or_iff_left fun h => h rfl).symm
  | cons e extensions ih =>
    obtain ⟨hList, hSome⟩ := ih (t.register (slotOf r e) e.2.2)
    rw [registerExtensions_cons, hList, hSome, contents_register]
    by_cases hSlot : slotOf r e = slot
    · subst hSlot
      simp [extensionsAt]
    · simp [extensionsAt, hSlot, Function.update_of_ne (Ne.symm hSlot)]

/-- The tables after calls of `register_extensions`. -/
def registered (registrations : List (Registration ε)) : Tables ε :=
  registrations.foldl (fun t call => t.registerExtensions call.1 call.2) .empty

theorem contents_foldl (t : Tables ε) (registrations : List (Registration ε)) (slot : Slot) :
    ((registrations.foldl (fun t call => t.registerExtensions call.1 call.2) t).contents
        slot).getD [] = (t.contents slot).getD [] ++
          registrations.flatMap (fun call => extensionsAt slot call.1 call.2) ∧
      (((registrations.foldl (fun t call => t.registerExtensions call.1 call.2) t).contents
          slot).isSome = true ↔ (t.contents slot).isSome = true ∨
            registrations.flatMap (fun call => extensionsAt slot call.1 call.2) ≠ []) := by
  induction registrations generalizing t with
  | nil =>
    constructor
    · exact (List.append_nil _).symm
    · exact (or_iff_left fun h => h rfl).symm
  | cons call registrations ih =>
    obtain ⟨hCall, hCallSome⟩ := contents_registerExtensions t call.1 call.2 slot
    obtain ⟨hRest, hRestSome⟩ := ih (t.registerExtensions call.1 call.2)
    rw [List.foldl_cons, List.flatMap_cons, hRest, hRestSome, hCall, hCallSome, List.append_assoc]
    refine ⟨rfl, ?_⟩
    rw [or_assoc, ne_eq, ne_eq, ne_eq, List.append_eq_nil_iff, not_and_or]

/-- The lists of the tables: a place has one exactly if something is registered there. -/
theorem contents_registered (registrations : List (Registration ε)) (slot : Slot) :
    ((registered registrations).contents slot).getD [] =
        registrations.flatMap (fun call => extensionsAt slot call.1 call.2) ∧
      (((registered registrations).contents slot).isSome = true ↔
        registrations.flatMap (fun call => extensionsAt slot call.1 call.2) ≠ []) := by
  obtain ⟨hList, hSome⟩ := contents_foldl .empty registrations slot
  have hEmpty : (Tables.empty : Tables ε).contents slot = none := rfl
  rw [hEmpty] at hList hSome
  exact ⟨hList, hSome.trans (or_iff_right Bool.false_ne_true)⟩

end Tables

section Registered

variable {μ ε : Type} (R : Resources μ) (registrations : List (Registration ε))

/-- The extension is registered for what the request asks for: for the method, if the controller
has one of the name, and else for the action. -/
def IsFor (request : ActionRequest) (r : Nat) (e : String × Option String × ε) : Bool :=
  if ((R.resource r).attributes request.action).isSome then
    (e.2.1 = none || e.2.1 = some "") && e.1 = request.action
  else e.2.1.isSome && e.2.1 ≠ some "" && e.2.1 = request.actionName

/-- The extensions that are registered with the resource for the request, each as often as it is
registered and in that order. -/
def ownExtensions (request : ActionRequest) (r : Nat) : List ε :=
  registrations.flatMap fun call =>
    if call.1 = r then (call.2.filter (IsFor R request r)).map (·.2.2) else []

/-- Every request finds the method with what is registered for it with the resource and, after
that, with those that it inherits from; and the tables stay as they are. -/
def Undisturbed (requests : List (Nat × ActionRequest)) : Prop :=
  let t := Tables.registered registrations
  List.Forall₂ (fun q answer =>
    answer.1 = expected R (ownExtensions R registrations q.2) q.2 q.1 ∧
      t.contentsIn answer.2 = t.contents) requests (runRequests R t t.heap requests)

/-- All of these resources have a method for the request, one of them has an extension registered
for it, and so has one that it inherits from. -/
def ExtendsTable (q : Nat × ActionRequest) : Prop :=
  (∀ x ∈ chain R q.1, ∃ found, lookupMethod R q.2 x = .ok found) ∧
    ∃ x ∈ chain R q.1, ownExtensions R registrations q.2 x ≠ [] ∧
      ∃ parent, R.inherits x = some parent ∧
        ∃ y ∈ chain R parent, ownExtensions R registrations q.2 y ≠ []

end Registered

section Theorem

variable {μ ε : Type} {R : Resources μ} {registrations : List (Registration ε)}
  {request : ActionRequest} {r : Nat}

theorem actionPeek_eq_ok {body : Body} {actionName : String} :
    actionPeek body = .ok actionName ↔ body.key = some actionName := by
  unfold actionPeek Body.key
  split <;> simp_all
  split <;> simp

/-- The place that a lookup gives. -/
theorem lookupMethod_cases {found : μ × Slot} (h : lookupMethod R request r = .ok found) :
    ((R.resource r).attributes request.action).isSome = true ∧
        found.2 = ⟨r, .wsgiExtensions, request.action⟩ ∨
      (R.resource r).attributes request.action = none ∧
        ∃ name, request.actionName = some name ∧ found.2 = ⟨r, .wsgiActionExtensions, name⟩ := by
  unfold lookupMethod at h
  split at h
  · rename_i meth hMeth
    cases h
    exact Or.inl ⟨by rw [hMeth]; rfl, rfl⟩
  · rename_i hNone
    split at h
    · split at h <;> cases h
    · obtain ⟨name, hName, hFound⟩ := except_bind_eq_ok.mp h
      refine Or.inr ⟨hNone, name, ?_, ?_⟩
      · unfold ActionRequest.actionName
        split at hName
        · rename_i hAction
          rw [if_pos hAction]
          exact actionPeek_eq_ok.mp hName
        · rename_i hAction
          rw [if_neg hAction]
          exact congrArg some (Except.ok.inj hName)
      · split at hFound
        · cases hFound
          rfl
        · cases hFound

/-- The place of a request is that of the extensions for it. -/
theorem slotOf_eq_iff {found : μ × Slot} (h : lookupMethod R request r = .ok found) (r' : Nat)
    (e : String × Option String × ε) :
    Tables.slotOf r' e = found.2 ↔ r' = r ∧ IsFor R request r e = true := by
  obtain ⟨methodName, actionName, extension⟩ := e
  rcases lookupMethod_cases h with ⟨hMeth, hSlot⟩ | ⟨hMeth, name, hName, hSlot⟩
  · rw [hSlot]
    cases actionName with
    | none => simp [Tables.slotOf, IsFor, hMeth]
    | some actionName =>
      by_cases hEmpty : actionName = "" <;>
        simp [Tables.slotOf, Option.filter, IsFor, hMeth, hEmpty]
  · rw [hSlot]
    cases actionName with
    | none => simp [Tables.slotOf, IsFor, hMeth]
    | some actionName =>
      by_cases hEmpty : actionName = "" <;>
        simp [Tables.slotOf, Option.filter, IsFor, hMeth, hName, hEmpty]

/-- What is registered at the place of a request is what is registered for it. -/
theorem extensionsAt_eq {found : μ × Slot} (h : lookupMethod R request r = .ok found) :
    registrations.flatMap (fun call => Tables.extensionsAt found.2 call.1 call.2) =
      ownExtensions R registrations request r := by
  refine List.flatMap_congr fun call _ => ?_
  unfold Tables.extensionsAt
  by_cases hr : call.1 = r
  · rw [if_pos hr]
    congr 1
    refine List.filter_congr fun e _ => ?_
    rw [Bool.eq_iff_iff, decide_eq_true_eq, slotOf_eq_iff h, and_iff_right hr]
  · rw [if_neg hr, List.map_eq_nil_iff, List.filter_eq_nil_iff]
    intro e _ hSlot
    exact hr ((slotOf_eq_iff h call.1 e).mp (of_decide_eq_true hSlot)).1

theorem stored_registered {found : μ × Slot} (h : lookupMethod R request r = .ok found) :
    stored R (Tables.registered registrations) request r =
      ownExtensions R registrations request r := by
  obtain ⟨meth, slot⟩ := found
  rw [stored, h]
  exact (Tables.contents_registered registrations slot).1.trans (extensionsAt_eq h)

theorem expected_congr {own own' : Nat → List ε}
    (h : ∀ r found, lookupMethod R request r = .ok found → own r = own' r) (r : Nat) :
    expected R own request r = expected R own' request r := by
  induction r using inherits_induction (R := R) with
  | root r hRoot =>
    rw [expected_none hRoot, expected_none hRoot]
    cases hFound : lookupMethod R request r with
    | error e => rfl
    | ok found => rw [h r found hFound]
  | child r parent hParent ih =>
    rw [expected_some hParent, expected_some hParent, ih]
    cases hFound : lookupMethod R request r with
    | error e => rfl
    | ok found => rw [h r found hFound]

/-- Among registered extensions a list grows exactly if two resources of a chain have some. -/
theorem grows_registered (q : Nat × ActionRequest) :
    Grows R (Tables.registered registrations) q ↔ ExtendsTable R registrations q := by
  unfold Grows ExtendsTable
  refine and_congr_right fun hLookups => exists_congr fun x => and_congr_right fun hx => ?_
  obtain ⟨⟨meth, slot⟩, hFound⟩ := hLookups x hx
  have hRest := lookups_of_mem hx hLookups
  refine and_congr ?_ (exists_congr fun parent => and_congr_right fun hParent =>
    exists_congr fun y => and_congr_right fun hy => ?_)
  · have hList := (Tables.contents_registered registrations slot).2
    rw [extensionsAt_eq hFound, Tables.contents, Tables.contentsIn, Option.isSome_map] at hList
    rw [← hList, hFound]
    constructor
    · rintro ⟨meth', slot', hSame, hSome⟩
      cases hSame
      exact hSome
    · exact fun hSome => ⟨meth, slot, rfl, hSome⟩
  · rw [chain_some hParent] at hRest
    obtain ⟨found, hFound⟩ := (List.forall_mem_cons.mp hRest).2 y hy
    rw [stored_registered hFound]

/-- Whatever was registered and in whatever order: a sequence of requests finds what is registered
for each of them and leaves the tables as they are, exactly if none of them extends a table. -/
theorem undisturbed_iff (R : Resources μ) (registrations : List (Registration ε))
    (requests : List (Nat × ActionRequest)) :
    Undisturbed R registrations requests ↔
      ∀ q ∈ requests, ¬ ExtendsTable R registrations q := by
  have hExpected : ∀ q : Nat × ActionRequest,
      expected R (ownExtensions R registrations q.2) q.2 q.1 =
        expected R (stored R (Tables.registered registrations) q.2) q.2 q.1 := fun q =>
    expected_congr (fun _ _ hFound => (stored_registered hFound).symm) q.1
  unfold Undisturbed
  simp only [hExpected]
  rw [forall_serve_iff]
  exact forall₂_congr fun q _ => not_congr (grows_registered q)

end Theorem

/-! ## Extensions of a resource and of its parent -/

/-- Two resources with a method `index`, of which the second one inherits from the first one. -/
def parentAndChild : Resources String where
  resource _ := ⟨true, fun name => if name = "index" then some "index" else none, []⟩
  inherits r := if r = 1 then some 0 else none
  inherits_lt := by
    intro r parent h
    split at h
    · cases h
      omega
    · cases h

/-- Each with an extension of `index`. -/
def twoExtensions : List (Registration String) :=
  [(0, [("index", none, "parent")]), (1, [("index", none, "own")])]

/-- Whatever is registered, requests find what is registered for them and leave the tables as they
are. -/
def AlwaysUndisturbed : Prop :=
  ∀ (R : Resources String) (registrations : List (Registration String)) requests,
    Undisturbed R registrations requests

/-- A request for `index` adds the extension of the parent to the list of the child. -/
theorem not_alwaysUndisturbed : ¬ AlwaysUndisturbed := by
  intro h
  have hAll := h parentAndChild twoExtensions [(1, ⟨"index", .notJson⟩)]
  unfold Undisturbed at hAll
  dsimp only at hAll
  rw [runRequests, List.forall₂_cons] at hAll
  have hServe := serve_spec (R := parentAndChild) (t := Tables.registered twoExtensions) le_rfl rfl
    (1, ⟨"index", .notJson⟩)
  refine hServe.2.2.mp hAll.1.2 ((grows_registered _).mpr ⟨?_, 1, ?_, ?_, 0, rfl, 0, ?_, ?_⟩)
  · exact fun x _ => ⟨("index", ⟨x, .wsgiExtensions, "index"⟩), rfl⟩
  · rw [chain]
    exact List.mem_cons_self
  · decide
  · rw [chain]
    exact List.mem_cons_self
  · decide

end MasakariHA.Api
