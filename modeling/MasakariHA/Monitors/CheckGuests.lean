import MasakariHA.Exception
import MasakariHA.Lib.Ensures
import MasakariHA.Monitors.ParseCibXml

/-!
# A sweep over the guests

`QemuGuestAgent.checkGuests`: every running domain is looked up, asked for its agent, and
pinged under its lock when it has one.

* `hasQemuGuestAgent`, with `detectsAgent_iff`: when it finds the agent;
* `checkGuests`: the sweep, with the attempts made in their order;
* `reached`: the domains that the sweep comes to;
* `checksAll_iff`: when it comes to all of them.
-/

namespace MasakariHA.Monitors.CheckGuests

open Lib

/-! ## The agent -/

/-- `libvirt.VIR_DOMAIN_RUNNING`. -/
def virDomainRunning : Int := 1

/-- `tree.findall("devices/channel/source")`. -/
def channelSources (tree : Element) : List Element :=
  ((tree.childrenTagged "devices").flatMap (·.childrenTagged "channel")).flatMap
    (·.childrenTagged "source")

/-- The test of a source; `re.match` of a missing path raises, and the answer is `False`. -/
def isAgentSource (pathMatch : String → Bool) (source : Element) : Bool :=
  match source.get "path" with
  | some path => pathMatch path && source.get "mode" = some "bind"
  | none => false

/-- `_hasQemuGuestAgent`, with the state of the domain and its parsed description, each of which
libvirt may refuse; `pathMatch` says what `qemu_guest_agent_sock_path` matches. -/
def hasQemuGuestAgent (pathMatch : String → Bool) (state : Except Exc Int)
    (xmlDesc : Except Exc Element) : Except Exc Bool := do
  let state ← state
  if state ≠ virDomainRunning then pure false
  else
    let tree ← xmlDesc
    match (channelSources tree).head? with
    | some source => pure (isAgentSource pathMatch source)
    | none => pure false

/-- Some source of some channel under devices is bound to a path that matches. -/
def HasAgentChannel (pathMatch : String → Bool) (tree : Element) : Prop :=
  ∃ devices ∈ tree.childrenTagged "devices", ∃ channel ∈ devices.childrenTagged "channel",
    ∃ source ∈ channel.childrenTagged "source", source.get "mode" = some "bind" ∧
      ∃ path, source.get "path" = some path ∧ pathMatch path = true

/-- The answer is `True` exactly for a running domain with such a channel. -/
def DetectsAgent (pathMatch : String → Bool) (state : Int) (tree : Element) : Prop :=
  hasQemuGuestAgent pathMatch (.ok state) (.ok tree) = .ok true ↔
    state = virDomainRunning ∧ HasAgentChannel pathMatch tree

section Agent

variable {pathMatch : String → Bool} {source tree : Element}

theorem isAgentSource_iff : isAgentSource pathMatch source = true ↔
    source.get "mode" = some "bind" ∧
      ∃ path, source.get "path" = some path ∧ pathMatch path = true := by
  unfold isAgentSource
  cases source.get "path" with
  | none => simp
  | some path => simp [and_comm]

theorem hasAgentChannel_iff : HasAgentChannel pathMatch tree ↔
    ∃ source ∈ channelSources tree, isAgentSource pathMatch source = true := by
  simp only [HasAgentChannel, channelSources, List.mem_flatMap, isAgentSource_iff]
  constructor
  · rintro ⟨devices, hDevices, channel, hChannel, source, hSource, hAgent⟩
    exact ⟨source, ⟨channel, ⟨devices, hDevices, hChannel⟩, hSource⟩, hAgent⟩
  · rintro ⟨source, ⟨channel, ⟨devices, hDevices, hChannel⟩, hSource⟩, hAgent⟩
    exact ⟨devices, hDevices, channel, hChannel, source, hSource, hAgent⟩

theorem hasQemuGuestAgent_running : hasQemuGuestAgent pathMatch (.ok virDomainRunning) (.ok tree) =
    .ok ((channelSources tree).head?.any (isAgentSource pathMatch)) := by
  simp only [hasQemuGuestAgent, bind, Except.bind, ne_eq, not_true_eq_false, if_false]
  cases (channelSources tree).head? <;> rfl

/-- The agent of a running domain is found exactly when it has the first source, or none. -/
theorem detectsAgent_iff (pathMatch : String → Bool) (state : Int) (tree : Element) :
    DetectsAgent pathMatch state tree ↔
      (state = virDomainRunning → HasAgentChannel pathMatch tree →
        ∃ source, (channelSources tree).head? = some source ∧
          isAgentSource pathMatch source = true) := by
  unfold DetectsAgent
  by_cases hState : state = virDomainRunning
  · subst hState
    rw [hasQemuGuestAgent_running, Except.ok.injEq, Option.any_eq_true]
    have hFirst : (∃ source, (channelSources tree).head? = some source ∧
        isAgentSource pathMatch source = true) → HasAgentChannel pathMatch tree := by
      rintro ⟨source, hHead, hAgent⟩
      exact hasAgentChannel_iff.mpr ⟨source, List.mem_of_mem_head? hHead, hAgent⟩
    constructor
    · intro h _ hChannel
      exact h.mpr ⟨rfl, hChannel⟩
    · intro h
      exact ⟨fun hHead => ⟨rfl, hFirst hHead⟩, fun hAgent => h rfl hAgent.2⟩
  · have hFalse : hasQemuGuestAgent pathMatch (.ok state) (.ok tree) = .ok false := by
      simp only [hasQemuGuestAgent, bind, Except.bind, ne_eq, hState, not_false_eq_true, if_true]
      rfl
    rw [hFalse]
    exact iff_of_true ⟨nofun, fun h => absurd h.1 hState⟩ fun h => absurd h hState

end Agent

def channel (mode path : String) : Element :=
  ⟨"channel", [("type", "unix")], [⟨"source", [("mode", mode), ("path", path)], []⟩]⟩

/-- What `/var/lib/libvirt/qemu/org\.qemu\.guest_agent\.` matches. -/
def guestAgentSock (path : String) : Bool :=
  "/var/lib/libvirt/qemu/org.qemu.guest_agent.".toList.isPrefixOf path.toList

/-- A guest whose first channel is not that of the agent. -/
def twoChannels : Element :=
  ⟨"domain", [], [⟨"devices", [], [
    channel "bind" "/var/lib/libvirt/qemu/com.redhat.spice.0.instance-00000004.sock",
    channel "bind" "/var/lib/libvirt/qemu/org.qemu.guest_agent.0.instance-00000004.sock"]⟩]⟩

/-- Whatever the domain, its agent is found if it has one. -/
def AlwaysDetectsAgent : Prop := ∀ pathMatch state tree, DetectsAgent pathMatch state tree

/-- The second channel is not looked at. -/
theorem not_alwaysDetectsAgent : ¬ AlwaysDetectsAgent := by
  intro h
  have hDetects := h guestAgentSock virDomainRunning twoChannels
  have hChannel : HasAgentChannel guestAgentSock twoChannels := by
    rw [hasAgentChannel_iff]
    decide
  have hAnswer := hDetects.mpr ⟨rfl, hChannel⟩
  rw [hasQemuGuestAgent_running] at hAnswer
  revert hAnswer
  decide

/-! ## The sweep -/

/-- What libvirt and the locks answer for each domain, by its id. -/
structure Libvirt where
  /-- The domain may have vanished since it was listed. -/
  lookupFails : Int → Option Exc
  state : Int → Except Exc Int
  xmlDesc : Int → Except Exc Element
  uuidString : Int → String
  lockHeld : String → Bool
  guestPing : Int → Except Exc Unit

inductive Attempt where
  | check (id : Int)
  | ping (id : Int)
  deriving DecidableEq

/-- The state is the list of the attempts, in their order. -/
abbrev SweepM := EStateM Exc (List Attempt)

def libvirtError : Exc := .other "libvirtError"

/-- `map(None, *[iter(running)] * 3)` of Python 2. -/
def rows {α : Type} : List α → List (List (Option α))
  | a :: b :: c :: l => [some a, some b, some c] :: rows l
  | [a, b] => [[some a, some b, none]]
  | [a] => [[some a, none, none]]
  | [] => []

namespace Libvirt

variable (v : Libvirt) (pathMatch : String → Bool)

/-- A domain that is found is known by its id. -/
def lookupByID (id : Int) : Except Exc Int :=
  match v.lookupFails id with
  | some e => .error e
  | none => .ok id

def hasAgent (id : Int) : Except Exc Bool := hasQemuGuestAgent pathMatch (v.state id) (v.xmlDesc id)

/-- `do_qemuAgentGuestPing`; the wrapper `synchronized` does not wait for the lock. -/
def doQemuAgentGuestPing (id : Int) : SweepM Unit := do
  modify (· ++ [.ping id])
  if v.lockHeld (v.uuidString id) then throw (.other "Exception")
  else MonadExcept.ofExcept (v.guestPing id)

/-- The body of the inner `try`. -/
def tryGuest (id : Int) : SweepM Unit := do
  modify (· ++ [.check id])
  let present ← MonadExcept.ofExcept (v.hasAgent pathMatch id)
  if present then v.doQemuAgentGuestPing id

/-- The body of the loop over a row. -/
def checkGuest : Option Int → SweepM Unit
  | some id =>
    tryCatch (v.tryGuest pathMatch id) fun e => if e = libvirtError then pure () else throw e
  | none => pure ()

/-- `checkGuests` on the ids that `listDomainsID` returned. -/
def checkGuests (ids : List Int) : SweepM Unit :=
  tryCatch
    (do
      let running ← MonadExcept.ofExcept (ids.mapM v.lookupByID)
      (rows running).forM fun row => row.forM (v.checkGuest pathMatch))
    (fun e => if e.isException then pure () else throw e)

/-! ## What should be attempted -/

def Found (id : Int) : Prop := v.lookupFails id = none

def Present (id : Int) : Prop := v.hasAgent pathMatch id = .ok true

/-- What the body of the inner `try` raises. -/
def raised (id : Int) : Option Exc :=
  match v.hasAgent pathMatch id with
  | .error e => some e
  | .ok false => none
  | .ok true =>
    if v.lockHeld (v.uuidString id) then some (.other "Exception")
    else
      match v.guestPing id with
      | .error e => some e
      | .ok () => none

/-- Something is raised that the inner handler does not catch. -/
def Escapes (id : Int) : Prop := ∃ e, v.raised pathMatch id = some e ∧ e ≠ libvirtError

/-- Every listed domain that is found was checked as often as it is listed, and pinged as often if
it has the agent. -/
def AllAttempted (ids : List Int) (attempts : List Attempt) : Prop :=
  ∀ id, v.Found id → attempts.count (.check id) = ids.count id ∧
    (v.Present pathMatch id → attempts.count (.ping id) = ids.count id) ∧
    (¬ v.Present pathMatch id → attempts.count (.ping id) = 0)

/-- However the call ends, all of the listed domains were attempted. -/
def ChecksAll (ids : List Int) : Prop :=
  Ends (v.checkGuests pathMatch ids) [] (v.AllAttempted pathMatch ids)

/-- The attempts for a domain. -/
def attempts (id : Int) : List Attempt :=
  match v.hasAgent pathMatch id with
  | .ok true => [.check id, .ping id]
  | _ => [.check id]

/-- The attempts of a sweep over domains that were all found: for all of them, or up to the first
one that ends it. -/
def Swept (ids : List Int) (attempts : List Attempt) : Prop :=
  (∀ id ∈ ids, ¬ v.Escapes pathMatch id) ∧ attempts = ids.flatMap (v.attempts pathMatch) ∨
    ∃ passed id rest, ids = passed ++ id :: rest ∧ (∀ id ∈ passed, ¬ v.Escapes pathMatch id) ∧
      v.Escapes pathMatch id ∧ attempts = (passed ++ [id]).flatMap (v.attempts pathMatch)

end Libvirt

section Sweep

variable {v : Libvirt} {pathMatch : String → Bool} {id : Int} {ids : List Int}
  {attempts : List Attempt}

/-- The rows hold the entries in their order, and nothing is done for the padding. -/
theorem forM_rows {α : Type} (f : Option α → SweepM Unit) (hNone : f none = pure ())
    (l : List α) : ((rows l).forM fun row => row.forM f) = l.forM fun a => f (some a) := by
  have hRow : ∀ (row : List (Option α)) (rest : List (List (Option α))),
      ((row :: rest).forM fun row => row.forM f) =
        row.forM f >>= fun _ => rest.forM fun row => row.forM f := fun _ _ => rfl
  have hCons : ∀ {β : Type} (g : β → SweepM Unit) b (m : List β),
      (b :: m).forM g = g b >>= fun _ => m.forM g := fun _ _ _ => rfl
  have hNil : ∀ {β : Type} (g : β → SweepM Unit), ([] : List β).forM g = pure () := fun _ => rfl
  fun_induction rows l with
  | case1 a b c l ih => simp only [hRow, hCons, hNil, ih, bind_assoc, pure_bind]
  | case2 a b => simp only [hRow, hCons, hNil, hNone, bind_assoc, pure_bind]
  | case3 a => simp only [hRow, hCons, hNil, hNone, bind_assoc, pure_bind]
  | case4 => rfl

theorem mapM_lookupByID (hFound : ∀ id ∈ ids, v.Found id) :
    ids.mapM v.lookupByID = .ok ids := by
  induction ids with
  | nil => rfl
  | cons id ids ih =>
    have hId : v.lookupByID id = .ok id := by
      have hLookup : v.lookupFails id = none := hFound id List.mem_cons_self
      simp only [Libvirt.lookupByID, hLookup]
    rw [List.mapM_cons, hId, ih fun id' hId' => hFound id' (List.mem_cons_of_mem _ hId')]
    rfl

theorem mapM_lookupByID_error (hId : id ∈ ids) (hFound : ¬ v.Found id) :
    ∃ e, ids.mapM v.lookupByID = .error e := by
  induction ids with
  | nil => cases hId
  | cons first ids ih =>
    rw [List.mapM_cons]
    cases hFirst : v.lookupByID first with
    | error e => exact ⟨e, rfl⟩
    | ok d =>
      have hRest : id ∈ ids := by
        rcases List.mem_cons.mp hId with rfl | hRest
        · refine absurd ?_ hFound
          unfold Libvirt.lookupByID at hFirst
          split at hFirst
          · cases hFirst
          · assumption
        · exact hRest
      obtain ⟨e, hError⟩ := ih hRest
      exact ⟨e, by rw [hError]; rfl⟩

/-- The attempts for a domain are made, and the body raises what is said of it. -/
theorem tryGuest_spec : Ensures (v.tryGuest pathMatch id) attempts
    (fun _ attempts' => attempts' = attempts ++ v.attempts pathMatch id ∧
      v.raised pathMatch id = none)
    (fun e attempts' => attempts' = attempts ++ v.attempts pathMatch id ∧
      v.raised pathMatch id = some e) := by
  unfold Libvirt.tryGuest Libvirt.attempts Libvirt.raised
  rw [ensures_bind, ensures_modify, ensures_bind, ensures_ofExcept]
  cases v.hasAgent pathMatch id with
  | error e => exact ⟨rfl, rfl⟩
  | ok present =>
    cases present with
    | false => exact ⟨rfl, rfl⟩
    | true =>
      dsimp only [if_true]
      rw [if_pos rfl, Libvirt.doQemuAgentGuestPing, ensures_bind, ensures_modify]
      split
      · rw [ensures_throw, List.append_assoc]
        exact ⟨rfl, rfl⟩
      · rw [ensures_ofExcept, List.append_assoc]
        cases v.guestPing id with
        | error e => exact ⟨rfl, rfl⟩
        | ok _ => exact ⟨rfl, rfl⟩

theorem checkGuest_spec : Ensures (v.checkGuest pathMatch (some id)) attempts
    (fun _ attempts' => attempts' = attempts ++ v.attempts pathMatch id ∧
      ¬ v.Escapes pathMatch id)
    (fun _ attempts' => attempts' = attempts ++ v.attempts pathMatch id ∧
      v.Escapes pathMatch id) := by
  unfold Libvirt.checkGuest
  rw [ensures_tryCatch]
  refine ensures_mono tryGuest_spec ?_ ?_
  · rintro _ attempts' ⟨hAttempts, hRaised⟩
    refine ⟨hAttempts, ?_⟩
    rintro ⟨e, hEscape, _⟩
    rw [hRaised] at hEscape
    cases hEscape
  · rintro e attempts' ⟨hAttempts, hRaised⟩
    by_cases hLibvirt : e = libvirtError
    · rw [if_pos hLibvirt, ensures_pure]
      refine ⟨hAttempts, ?_⟩
      rintro ⟨e', hEscape, hNot⟩
      rw [hRaised, Option.some.injEq] at hEscape
      exact hNot (hEscape ▸ hLibvirt)
    · rw [if_neg hLibvirt, ensures_throw]
      exact ⟨hAttempts, e, hRaised, hLibvirt⟩

theorem ends_checkGuests (hFound : ∀ id ∈ ids, v.Found id) :
    Ends (v.checkGuests pathMatch ids) [] (v.Swept pathMatch ids) := by
  have hLoop : Ensures (ids.forM fun id => v.checkGuest pathMatch (some id)) []
      (fun _ => v.Swept pathMatch ids) (fun _ => v.Swept pathMatch ids) := by
    refine ensures_mono (ensures_forM_split (fun passed attempts =>
      attempts = passed.flatMap (v.attempts pathMatch) ∧
        ∀ id ∈ passed, ¬ v.Escapes pathMatch id) ⟨rfl, nofun⟩ ?_)
      (fun _ _ h => Or.inl ⟨h.2, h.1⟩) fun _ _ h => h
    rintro passed id rest hSplit _ ⟨rfl, hPassed⟩
    refine ensures_mono checkGuest_spec ?_ ?_
    · rintro _ _ ⟨rfl, hNot⟩
      refine ⟨by simp, fun other hOther => ?_⟩
      rcases List.mem_append.mp hOther with hOther | hOther
      · exact hPassed other hOther
      · rwa [List.mem_singleton.mp hOther]
    · rintro _ _ ⟨rfl, hEscapes⟩
      exact Or.inr ⟨passed, id, rest, hSplit, hPassed, hEscapes, by simp⟩
  unfold Ends Libvirt.checkGuests
  rw [ensures_tryCatch, ensures_bind, ensures_ofExcept, mapM_lookupByID hFound]
  dsimp only
  rw [forM_rows _ rfl]
  refine ensures_mono hLoop (fun _ _ h => h) fun e attempts h => ?_
  split
  · exact h
  · exact h

/-- One lookup that fails is enough for no attempt at all. -/
theorem ends_checkGuests_vanished (hId : id ∈ ids) (hFound : ¬ v.Found id) :
    Ends (v.checkGuests pathMatch ids) [] (· = []) := by
  obtain ⟨e, hError⟩ := mapM_lookupByID_error hId hFound
  unfold Ends Libvirt.checkGuests
  rw [ensures_tryCatch, ensures_bind, ensures_ofExcept, hError]
  dsimp only
  split
  · rfl
  · rfl

theorem count_check (ids : List Int) :
    (ids.flatMap (v.attempts pathMatch)).count (.check id) = ids.count id := by
  induction ids with
  | nil => rfl
  | cons first ids ih =>
    have hFirst : (v.attempts pathMatch first).count (.check id) = [first].count id := by
      unfold Libvirt.attempts
      split <;> simp [List.count_cons]
    rw [List.flatMap_cons, List.count_append, ih, hFirst, ← List.count_append]
    rfl

theorem count_ping (hPresent : v.Present pathMatch id) (ids : List Int) :
    (ids.flatMap (v.attempts pathMatch)).count (.ping id) = ids.count id := by
  induction ids with
  | nil => rfl
  | cons first ids ih =>
    have hFirst : (v.attempts pathMatch first).count (.ping id) = [first].count id := by
      unfold Libvirt.attempts
      by_cases hId : first = id
      · subst hId
        rw [show v.hasAgent pathMatch first = .ok true from hPresent]
        simp
      · split <;> simp [hId]
    rw [List.flatMap_cons, List.count_append, ih, hFirst, ← List.count_append]
    rfl

theorem count_ping_absent (hPresent : ¬ v.Present pathMatch id) (ids : List Int) :
    (ids.flatMap (v.attempts pathMatch)).count (.ping id) = 0 := by
  rw [List.count_eq_zero]
  intro hMem
  obtain ⟨first, -, hPing⟩ := List.mem_flatMap.mp hMem
  unfold Libvirt.attempts at hPing
  split at hPing
  · rename_i hAgent
    simp only [List.mem_cons, List.not_mem_nil, reduceCtorEq, Attempt.ping.injEq, false_or,
      or_false] at hPing
    exact hPresent (hPing ▸ hAgent)
  · simp at hPing

theorem allAttempted_flatMap : v.AllAttempted pathMatch ids (ids.flatMap (v.attempts pathMatch)) :=
  fun _ _ => ⟨count_check ids, fun hPresent => count_ping hPresent ids,
    fun hPresent => count_ping_absent hPresent ids⟩

theorem allAttempted_nil : v.AllAttempted pathMatch ids [] ↔ ∀ id ∈ ids, ¬ v.Found id := by
  constructor
  · intro h id hId hFound
    have hCount := (h id hFound).1
    rw [List.count_nil] at hCount
    exact absurd hId (List.count_eq_zero.mp hCount.symm)
  · intro h id hFound
    have hNotMem : id ∉ ids := fun hId => h id hId hFound
    rw [List.count_eq_zero.mpr hNotMem]
    exact ⟨rfl, fun _ => rfl, fun _ => rfl⟩

/-- A sweep that ends early leaves the next domain out. -/
theorem not_allAttempted {reached left : List Int} (hFound : ∀ id ∈ left, v.Found id)
    (hLeft : left ≠ []) :
    ¬ v.AllAttempted pathMatch (reached ++ left) (reached.flatMap (v.attempts pathMatch)) := by
  intro hAll
  obtain ⟨next, hNext⟩ := List.exists_mem_of_ne_nil left hLeft
  have hCount := (hAll next (hFound next hNext)).1
  have hPos : 0 < left.count next := List.count_pos_iff.mpr hNext
  rw [count_check, List.count_append] at hCount
  omega

theorem allAttempted_of_swept (hFound : ∀ id ∈ ids, v.Found id)
    (hSwept : v.Swept pathMatch ids attempts) :
    v.AllAttempted pathMatch ids attempts ↔ ∀ id ∈ ids.dropLast, ¬ v.Escapes pathMatch id := by
  rcases hSwept with ⟨hNone, rfl⟩ | ⟨passed, id, rest, rfl, hPassed, hEscapes, rfl⟩
  · exact iff_of_true allAttempted_flatMap fun id hId => hNone id (List.mem_of_mem_dropLast hId)
  rw [List.append_cons] at hFound ⊢
  by_cases hRest : rest = []
  · subst hRest
    rw [List.append_nil, List.dropLast_concat]
    exact iff_of_true allAttempted_flatMap hPassed
  · refine iff_of_false (not_allAttempted (fun id hId => hFound id
      (List.mem_append_right _ hId)) hRest) fun hNone => ?_
    rw [List.dropLast_append_of_ne_nil hRest] at hNone
    exact hNone id (by simp) hEscapes

/-- A sweep checks all of the domains exactly when none of them is found, or all are and none but
the last one raises what the inner handler does not catch. -/
theorem checksAll_iff (v : Libvirt) (pathMatch : String → Bool) (ids : List Int) :
    v.ChecksAll pathMatch ids ↔ (∀ id ∈ ids, ¬ v.Found id) ∨
      (∀ id ∈ ids, v.Found id) ∧ ∀ id ∈ ids.dropLast, ¬ v.Escapes pathMatch id := by
  unfold Libvirt.ChecksAll
  by_cases hFound : ∀ id ∈ ids, v.Found id
  · have hSame : (∀ id ∈ ids.dropLast, ¬ v.Escapes pathMatch id) ↔
        (∀ id ∈ ids, ¬ v.Found id) ∨
          (∀ id ∈ ids, v.Found id) ∧ ∀ id ∈ ids.dropLast, ¬ v.Escapes pathMatch id := by
      constructor
      · exact fun h => Or.inr ⟨hFound, h⟩
      · rintro (hNone | ⟨_, h⟩)
        · intro id hId
          exact absurd (hFound id (List.mem_of_mem_dropLast hId))
            (hNone id (List.mem_of_mem_dropLast hId))
        · exact h
    rw [← hSame, ← ensures_const (v.checkGuests pathMatch ids) []
      (∀ id ∈ ids.dropLast, ¬ v.Escapes pathMatch id)]
    exact ensures_congr (ends_checkGuests hFound) (fun _ _ => allAttempted_of_swept hFound)
      fun _ _ => allAttempted_of_swept hFound
  · have hLost : ∃ id ∈ ids, ¬ v.Found id := by simpa using hFound
    obtain ⟨lost, hMem, hLost⟩ := hLost
    rw [or_iff_left fun h => hFound h.1,
      ← ensures_const (v.checkGuests pathMatch ids) [] (∀ id ∈ ids, ¬ v.Found id)]
    refine ensures_congr (ends_checkGuests_vanished hMem hLost) ?_ ?_
    · rintro _ _ rfl
      exact allAttempted_nil
    · rintro _ _ rfl
      exact allAttempted_nil

end Sweep

/-! ## A lock that is held -/

/-- Two guests with an agent; the lock of the first one is held. -/
def lockedGuest : Libvirt where
  lookupFails _ := none
  state _ := .ok virDomainRunning
  xmlDesc _ := .ok ⟨"domain", [], [⟨"devices", [], [channel "bind"
    "/var/lib/libvirt/qemu/org.qemu.guest_agent.0.instance-00000004.sock"]⟩]⟩
  uuidString id := if id = 1 then "uuid1" else "uuid2"
  lockHeld uuid := uuid = "uuid1"
  guestPing _ := .ok ()

/-- Whatever happens to the domains, all of them are attempted. -/
def AlwaysChecksAll : Prop := ∀ (v : Libvirt) pathMatch ids, v.ChecksAll pathMatch ids

/-- The second guest is not checked. -/
theorem not_alwaysChecksAll : ¬ AlwaysChecksAll := by
  intro h
  have hAll := h lockedGuest guestAgentSock [1, 2]
  have hRun : (lockedGuest.checkGuests guestAgentSock [1, 2]).run [] =
      .ok () [.check 1, .ping 1] := rfl
  unfold Libvirt.ChecksAll Ends Ensures at hAll
  rw [hRun] at hAll
  have hCount := (hAll 2 rfl).1
  revert hCount
  decide

end MasakariHA.Monitors.CheckGuests
