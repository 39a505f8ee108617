import MasakariHA.Lib.Trans
import MasakariHA.Monitors.HostmonitorSh.LastStates
import MasakariHA.Monitors.HostmonitorSh.MainLoop

/-!
# Rounds of `hostmonitor.sh`

The file of the last states over the rounds of the main loop: it is made in one round, compared and
rewritten by the children in the next ones, and removed when the heartbeat has stopped or `crm_mon`
fails. The children of a round run at the same time. The lock is one of the file that was opened,
and `sed -i` puts another file in its place, so that two of them can be behind the lock at once.

* `Stage`, `access`: `parse_node_status` with one node, access by access;
* `monitor`: the main loop with its children, in any order of their steps;
* `seen`, `changes`: what is to be notified, by the log of a run;
* `undisturbed`: no one writes between the reading and the renaming of a `sed`;
* `Follows`, `inv_step`: what is in the file, at every stage of a node;
* `notifications_eq`: in an undisturbed run the loop notifies the changes and nothing else;
* `notifications_eq_single`: with a single child every run is undisturbed.
-/

namespace MasakariHA.Monitors.HostmonitorSh

open Lib Lib.Shell

/-! ## One node of a child -/

/-- The event of a notification. -/
def eventOfState (state : Nat) : Text := if state = 0 then "STARTED".toList else "STOPPED".toList

/-- What a child knows of the node: `result1`, what `compare_status_file` will return, and what it
will do to the file. -/
structure Work where
  state : Nat
  result : Nat
  edit : Edit

/-- How far a child is with a node. -/
inductive Stage where
  | waiting
  /-- The last status has been read: `exec 9>>$1` comes next. -/
  | compared (w : Work)
  /-- `flock -x 9` waits for the lock of this file. -/
  | opened (w : Work) (inode : Nat)
  | locked (w : Work) (inode : Nat)
  /-- `sed` has read the file, and will put these lines in its place. -/
  | replacing (w : Work) (inode : Nat) (lines : List Text)
  /-- `exec 9>&-` comes next. -/
  | written (w : Work) (inode : Nat)
  /-- `compare_status_file` has returned. -/
  | returned (w : Work)
  | done

namespace Stage

/-- The child has the lock of this file. -/
def holds (inode : Nat) : Stage → Bool
  | locked _ i | replacing _ i _ | written _ i => i = inode
  | waiting | compared _ | opened _ _ | returned _ | done => false

def isDone : Stage → Bool
  | done => true
  | waiting | compared _ | opened _ _ | locked _ _ | replacing _ _ _ | written _ _
  | returned _ => false

def isReplacing : Stage → Bool
  | replacing _ _ _ => true
  | waiting | compared _ | opened _ _ | locked _ _ | written _ _ | returned _ | done => false

/-- The next access writes the file. -/
def writes : Stage → Bool
  | locked w _ =>
    match w.edit with
    | .append _ => true
    | .keep | .replace _ _ => false
  | replacing _ _ _ => true
  | waiting | compared _ | opened _ _ | written _ _ | returned _ | done => false

def isWaiting : Stage → Bool
  | waiting => true
  | compared _ | opened _ _ | locked _ _ | replacing _ _ _ | written _ _ | returned _
  | done => false

theorem eq_done {stage : Stage} (h : stage.isDone = true) : stage = done := by
  cases stage <;> first | rfl | cases h

theorem of_writes {stage : Stage} (h : stage.writes = true) :
    stage.isWaiting = false ∧ stage.isDone = false := by
  cases stage <;> first | exact ⟨rfl, rfl⟩ | cases h

theorem not_replacing {stage : Stage} (h : stage.isDone = true ∨ stage.isWaiting = true) :
    stage.isReplacing = false := by
  cases stage <;> simp [isDone, isWaiting, isReplacing] at h ⊢

end Stage

/-- The file under its name. -/
structure StatusText where
  inode : Nat
  lines : List Text

inductive Event where
  | removed
  /-- `check_node_status` has returned this state. -/
  | found (name : Text) (state : Nat)
  | notified (name event : Text)
  deriving DecidableEq

/-- A look at the cluster: the output of `crm_mon`, and the nodes that it lists. -/
structure Look extends Pass where
  raCount : Int
  names : List NodeName
  listed_eq : listed lines = names.map NodeName.text

section Access

variable (g : Globbing) (p : Patterns)

/-- `check_node_status` -/
def Look.state (l : Look) (name : Text) : Nat := checkNodeStatus g l.lines name l.raCount

/-- The arguments of the calls of `parse_node_status`. -/
def Look.params (l : Look) : List (List Text) :=
  (l.children g).map fun child => g.split child.param

/-- The next access of the child that is at the node: its stage, the file, and what happens. `free`
says that no other child has the lock of a file. -/
def access (l : Look) (f : StatusText) (free : Nat → Bool) (name : Text) :
    Stage → Option (Stage × StatusText × List Event)
  | .waiting =>
    let state := l.state g name
    let (result, edit) := readStatus g p f.lines name state
    let w : Work := ⟨state, result, edit⟩
    match edit with
    | .keep => some (.returned w, f, [.found name state])
    | .append _ | .replace _ _ => some (.compared w, f, [.found name state])
  | .compared w => some (.opened w f.inode, f, [])
  | .opened w inode => if free inode then some (.locked w inode, f, []) else none
  | .locked w inode =>
    match w.edit with
    | .keep => some (.written w inode, f, [])
    | .append line => some (.written w inode, { f with lines := f.lines ++ [line] }, [])
    | .replace pattern text =>
      -- `sed` ends before it reads the file
      if '\n' ∈ pattern then some (.written w inode, f, [])
      else some (.replacing w inode (f.lines.map (replaceAll pattern text)), f, [])
  | .replacing w inode lines => some (.written w inode, ⟨f.inode + 1, lines⟩, [])
  | .written w _ => some (.returned w, f, [])
  | .returned w =>
    some (.done, f, if w.result = 1 then [.notified name (eventOfState w.state)] else [])
  | .done => none

end Access

/-! ## The main loop -/

/-- The main loop: the file, if there is one, the round whose children are running, how far these
are, and what has happened, newest first. -/
structure Loop where
  file : Option StatusText
  look : Option Look
  stages : Text → Stage
  log : List Event

inductive Label where
  /-- The round is skipped (`script_finalize 1`). -/
  | skip
  /-- The heartbeat has stopped, or `crm_mon` has failed (`script_finalize 0`). -/
  | remove
  | look (l : Look)
  /-- The next access of the child that is at this node. -/
  | node (name : Text)
  /-- `wait`: all children have ended. -/
  | wait

def Label.names : Label → List NodeName
  | .look l => l.names
  | .skip | .remove | .node _ | .wait => []

/-- `MAX_CHILD_PROCESS=1` -/
def Label.single : Label → Bool
  | .look l => l.maxChildProcess = 1
  | .skip | .remove | .node _ | .wait => true

section Loop

variable (g : Globbing) (p : Patterns)

/-- The nodes that `make_status_file` looks at. -/
def Look.first (l : Look) : List Text :=
  (nodesArray g l.lines).take (countClusterNodes g l.lines)

/-- `make_status_file` -/
def makeStatusFile (l : Look) : List Text :=
  (l.first g).foldl (fun file node => appendStatusFile file node (l.state g node)) []

namespace Loop

variable (s : Loop)

/-- It is the turn of the node in its child. -/
def turn (l : Look) (name : Text) : Bool :=
  (l.params g).any fun args =>
    args.contains name && (args.takeWhile (· ≠ name)).all fun before => (s.stages before).isDone

/-- No child has the lock of the file but for this node. -/
def free (l : Look) (name : Text) (inode : Nat) : Bool :=
  (l.params g).flatten.all fun other => other = name || !(s.stages other).holds inode

def step : Label → Option Loop
  | .skip => if s.look.isNone then some s else none
  | .remove =>
    if s.look.isNone then some { s with file := none, log := .removed :: s.log } else none
  | .look l =>
    if s.look.isNone then
      match s.file with
      | none => some { s with
          file := some ⟨0, makeStatusFile g l⟩
          log := (l.first g).foldl (fun log node => .found node (l.state g node) :: log) s.log }
      | some _ =>
        if countClusterNodes g l.lines = 0 then
          some { s with file := none, log := .removed :: s.log }
        else some { s with look := some l, stages := fun _ => .waiting }
    else none
  | .node name =>
    match s.look, s.file with
    | some l, some f =>
      if s.turn g l name then
        (access g p l f (s.free g l name) name (s.stages name)).map fun r =>
          { s with file := some r.2.1, stages := Function.update s.stages name r.1
                   log := r.2.2 ++ s.log }
      else none
    | none, _ | some _, none => none
  | .wait =>
    match s.look with
    | some l =>
      if (l.params g).flatten.all fun name => (s.stages name).isDone then
        some { s with look := none, stages := fun _ => .waiting }
      else none
    | none => none

/-- The file is not written while `sed` has read it for another node, and not yet put its own in its
place. -/
def undisturbed (s : Loop) : Label → Bool
  | .node name =>
    match s.look with
    | some l => !(s.stages name).writes ||
        (l.params g).flatten.all fun other => other = name || !(s.stages other).isReplacing
    | none => true
  | .skip | .remove | .look _ | .wait => true

end Loop

/-- The loop begins without a file. -/
def monitor : Trans Loop Label where
  init s := s = ⟨none, none, fun _ => .waiting, []⟩
  step s l := s.step g p l

end Loop

/-! ## What is to be notified -/

section Log

variable (name : Text)

/-- The states of a node since the file was made. -/
def seen : List Event → List Nat
  | [] | .removed :: _ => []
  | .found other state :: log => if other = name then seen log ++ [state] else seen log
  | .notified _ _ :: log => seen log

/-- The changes of a node: the events of the definite states that are not the last definite one. -/
def changes : List Event → List Text
  | [] => []
  | .found other state :: log =>
    if other = name ∧ changed (seen name log) state = true then
      changes log ++ [eventOfState state]
    else changes log
  | .removed :: log | .notified _ _ :: log => changes log

def notifications : List Event → List Text
  | [] => []
  | .notified other event :: log =>
    if other = name then notifications log ++ [event] else notifications log
  | .removed :: log | .found _ _ :: log => notifications log

end Log

/-- The node that an event is about. -/
def Event.node : Event → Option Text
  | .removed => none
  | .found name _ | .notified name _ => some name

/-- What happens to a node does not matter to the others. -/
theorem log_other {name other : Text} (hOther : other ≠ name) {events : List Event}
    (hEvents : ∀ e ∈ events, e.node = some name) (log : List Event) :
    seen other (events ++ log) = seen other log ∧
      changes other (events ++ log) = changes other log ∧
      notifications other (events ++ log) = notifications other log := by
  induction events with
  | nil => exact ⟨rfl, rfl, rfl⟩
  | cons e events ih =>
    obtain ⟨hNode, hEvents⟩ := List.forall_mem_cons.mp hEvents
    obtain ⟨hSeen, hChanges, hNotified⟩ := ih hEvents
    cases e with
    | removed => cases hNode
    | found node state =>
      obtain rfl := Option.some.inj hNode
      simp only [List.cons_append, seen, changes, notifications]
      rw [if_neg (Ne.symm hOther), if_neg fun h => hOther h.1.symm]
      exact ⟨hSeen, hChanges, hNotified⟩
    | notified node event =>
      obtain rfl := Option.some.inj hNode
      simp only [List.cons_append, seen, changes, notifications]
      rw [if_neg (Ne.symm hOther)]
      exact ⟨hSeen, hChanges, hNotified⟩

/-! ## What is in the file -/

section Invariant

variable {g : Globbing} {p : Patterns} {names : List NodeName} {entries entries' : List Entry}
  {log : List Event} {name other : NodeName} {w : Work} {stage stage' : Stage} {l : Look}
  {f f' : StatusText} {events : List Event}

/-- The file has the status after the states of the node, and all changes are notified. -/
def Settled (entries : List Entry) (log : List Event) (name : NodeName) : Prop :=
  statusOf entries name = statusAfter (seen name.text log) ∧
    changes name.text log = notifications name.text log

/-- What the child will notify is left. -/
def Reported (log : List Event) (name : NodeName) (w : Work) : Prop :=
  changes name.text log = notifications name.text log ++
    if w.result = 1 then [eventOfState w.state] else []

/-- The last state is not written yet, and the child has decided on it by the status of the
node. -/
structure Pending (entries : List Entry) (log : List Event) (name : NodeName) (w : Work) :
    Prop where
  states : ∃ before, seen name.text log = before ++ [w.state] ∧
    statusOf entries name = statusAfter before
  decision : (w.result, w.edit) = editOf name w.state (statusOf entries name)
  reported : Reported log name w

/-- The status of the node in the file, at every stage. -/
def Follows (entries : List Entry) (log : List Event) (name : NodeName) : Stage → Prop
  | .waiting | .done => Settled entries log name
  | .compared w | .opened w _ | .locked w _ => Pending entries log name w
  | .replacing w _ lines =>
    Pending entries log name w ∧ lines = w.edit.apply (entries.map Entry.line)
  | .written w _ | .returned w =>
    statusOf entries name = statusAfter (seen name.text log) ∧ Reported log name w

/-- A step for a node does not matter to the others, if it leaves the file as it is where `sed` has
read it for them. -/
theorem Follows.frame (h : Follows entries log other stage) (hOther : other ≠ name)
    (hStatus : statusOf entries' other = statusOf entries other)
    (hEvents : ∀ e ∈ events, e.node = some name.text)
    (hFile : entries' = entries ∨ stage.isReplacing = false) :
    Follows entries' (events ++ log) other stage := by
  have hText : other.text ≠ name.text := fun hSame => hOther (NodeName.ext hSame)
  obtain ⟨hSeen, hChanges, hNotified⟩ := log_other hText hEvents log
  have hReported : ∀ w, Reported log other w → Reported (events ++ log) other w := by
    intro w hReported
    unfold Reported
    rw [hChanges, hNotified]
    exact hReported
  have hPending : ∀ w, Pending entries log other w → Pending entries' (events ++ log) other w := by
    intro w ⟨hStates, hDecision, hLeft⟩
    refine ⟨?_, ?_, hReported w hLeft⟩
    · rw [hSeen, hStatus]
      exact hStates
    · rw [hStatus]
      exact hDecision
  cases stage with
  | waiting | done =>
    unfold Follows Settled at h ⊢
    rw [hSeen, hStatus, hChanges, hNotified]
    exact h
  | compared w | opened w inode | locked w inode => exact hPending w h
  | replacing w inode lines =>
    rcases hFile with rfl | hNot
    · exact ⟨hPending w h.1, h.2⟩
    · cases hNot
  | written w inode | returned w =>
    unfold Follows at h ⊢
    rw [hSeen, hStatus]
    exact ⟨h.1, hReported w h.2⟩

/-- The decision on a state that was just seen. -/
theorem pending_of_settled (h : Settled entries log name) {state : Nat} {r : Nat × Edit}
    (hDecision : r = editOf name state (statusOf entries name))
    (hChanged : r.1 = 1 ↔ changed (seen name.text log) state = true) :
    Pending entries (.found name.text state :: log) name ⟨state, r.1, r.2⟩ := by
  refine ⟨⟨seen name.text log, ?_, h.1⟩, hDecision, ?_⟩
  · simp only [seen, if_true]
  · unfold Reported
    simp only [changes, notifications, true_and]
    rw [h.2]
    by_cases hOne : r.1 = 1
    · rw [if_pos (hChanged.mp hOne), if_pos hOne]
    · rw [if_neg fun hTrue => hOne (hChanged.mpr hTrue), if_neg hOne, List.append_nil]

theorem Pending.statusAfter_eq (h : Pending entries log name w) :
    statusAfter (seen name.text log) = some (nextStatus (statusOf entries name) w.state) := by
  obtain ⟨before, hSeen, hStatus⟩ := h.states
  rw [hSeen, statusAfter_append, hStatus]

/-- The file is left alone only where it has the last state already. -/
theorem Pending.kept (h : Pending entries log name w) (hKeep : w.edit = .keep) :
    statusOf entries name = statusAfter (seen name.text log) ∧ Reported log name w := by
  have hEdit : (editOf name w.state (statusOf entries name)).2 = .keep := by
    rw [← h.decision]
    exact hKeep
  refine ⟨?_, h.reported⟩
  rw [h.statusAfter_eq]
  exact editOf_keep hEdit

/-- What a step for a node leaves: a file of entries in which only the one of this node has
changed. -/
structure Moved (names : List NodeName) (entries : List Entry) (log : List Event) (name : NodeName)
    (stage stage' : Stage) (f' : StatusText) (events : List Event) (entries' : List Entry) :
    Prop where
  lines : f'.lines = entries'.map Entry.line
  proper : Proper names entries'
  follows : Follows entries' (events ++ log) name stage'
  others : ∀ other, other ≠ name → statusOf entries' other = statusOf entries other
  quiet : entries' = entries ∨ stage.writes = true
  own : ∀ e ∈ events, e.node = some name.text

/-- A write puts the last state in the file. -/
theorem moved_write (hApart : Apart names) (hProper : Proper names entries) (hName : name ∈ names)
    (g : Globbing) (p : Patterns) (m : CrmMon) (h : Pending entries log name w)
    (hLines : f'.lines = w.edit.apply (entries.map Entry.line)) (hWrites : stage.writes = true)
    (inode : Nat) : Moved names entries log name stage (.written w inode) f' []
      (ownCompare name w.state entries).2 := by
  have hEdit : w.edit = (editOf name w.state (statusOf entries name)).2 := by rw [← h.decision]
  refine ⟨?_, proper_ownCompare hProper hName, ⟨?_, h.reported⟩, fun other hOther => ?_,
    Or.inr hWrites, List.forall_mem_nil _⟩
  · rw [hLines, hEdit]
    exact (apply_editOf hApart hProper hName g p m).1
  · rw [statusOf_ownCompare, if_pos rfl, List.nil_append, h.statusAfter_eq]
  · rw [statusOf_ownCompare, if_neg hOther]

/-- A step that writes nothing. -/
theorem moved_quiet (hProper : Proper names entries) (hLines : f.lines = entries.map Entry.line)
    (hFollows : Follows entries (events ++ log) name stage')
    (hOwn : ∀ e ∈ events, e.node = some name.text) :
    Moved names entries log name stage stage' f events entries :=
  ⟨hLines, hProper, hFollows, fun _ _ => rfl, Or.inl rfl, hOwn⟩

/-- The state of the node is seen, and its status read. -/
theorem moved_waiting (hApart : Apart names) (hProper : Proper names entries) (hName : name ∈ names)
    (hLines : f.lines = entries.map Entry.line) (h : Settled entries log name)
    {free : Nat → Bool}
    (hAccess : access g p l f free name.text .waiting = some (stage', f', events)) :
    ∃ entries', Moved names entries log name .waiting stage' f' events entries' := by
  have hRead : readStatus g p f.lines name.text (l.state g name.text) =
      editOf name (l.state g name.text) (statusOf entries name) := by
    rw [hLines]
    exact readStatus_eq hApart hProper hName
  have hChanged : (editOf name (l.state g name.text) (statusOf entries name)).1 = 1 ↔
      changed (seen name.text log) (l.state g name.text) = true := by
    rw [(apply_editOf hApart hProper hName g p l.toCrmMon).2]
    exact ownCompare_eq_one_iff h.1
  have hPending := pending_of_settled h rfl hChanged
  have hOwn : ∀ e ∈ [Event.found name.text (l.state g name.text)], e.node = some name.text :=
    List.forall_mem_singleton.mpr rfl
  unfold access at hAccess
  dsimp only at hAccess
  rw [hRead] at hAccess
  split at hAccess
  · rename_i hKeep
    cases hAccess
    exact ⟨entries, moved_quiet hProper hLines (hPending.kept hKeep) hOwn⟩
  · cases hAccess
    exact ⟨entries, moved_quiet hProper hLines hPending hOwn⟩
  · cases hAccess
    exact ⟨entries, moved_quiet hProper hLines hPending hOwn⟩

/-- The file is locked. -/
theorem moved_locked (hApart : Apart names) (hProper : Proper names entries) (hName : name ∈ names)
    (hLines : f.lines = entries.map Entry.line) {inode : Nat} (h : Pending entries log name w)
    {free : Nat → Bool}
    (hAccess : access g p l f free name.text (.locked w inode) = some (stage', f', events)) :
    ∃ entries', Moved names entries log name (.locked w inode) stage' f' events entries' := by
  unfold access at hAccess
  dsimp only at hAccess
  split at hAccess
  · rename_i hKeep
    cases hAccess
    exact ⟨entries, moved_quiet hProper hLines (h.kept hKeep) (List.forall_mem_nil _)⟩
  · rename_i line hAppend
    cases hAccess
    refine ⟨_, moved_write hApart hProper hName g p l.toCrmMon h ?_ ?_ inode⟩
    · rw [hAppend, Edit.apply, hLines]
    · rw [Stage.writes, hAppend]
  · rename_i pattern text hReplace
    have hFeed : '\n' ∉ pattern := by
      have hDecision := congrArg Prod.snd h.decision
      exact editOf_replace (hDecision.symm.trans hReplace)
    rw [if_neg hFeed] at hAccess
    cases hAccess
    refine ⟨entries, moved_quiet hProper hLines ⟨h, ?_⟩ (List.forall_mem_nil _)⟩
    rw [hReplace, Edit.apply, substitute, if_neg hFeed, hLines]

/-- The child notifies what is left. -/
theorem settled_of_reported (hStatus : statusOf entries name = statusAfter (seen name.text log))
    (h : Reported log name w) : Settled entries ((if w.result = 1 then
      [.notified name.text (eventOfState w.state)] else []) ++ log) name := by
  unfold Reported at h
  by_cases hOne : w.result = 1
  · rw [if_pos hOne] at h ⊢
    simp only [Settled, List.singleton_append, seen, changes, notifications, if_true]
    exact ⟨hStatus, h⟩
  · rw [if_neg hOne, List.append_nil] at h
    rw [if_neg hOne]
    exact ⟨hStatus, h⟩

theorem access_moved (hApart : Apart names) (hProper : Proper names entries) (hName : name ∈ names)
    (hLines : f.lines = entries.map Entry.line) (h : Follows entries log name stage)
    {free : Nat → Bool}
    (hAccess : access g p l f free name.text stage = some (stage', f', events)) :
    ∃ entries', Moved names entries log name stage stage' f' events entries' := by
  have hNone := List.forall_mem_nil fun e : Event => e.node = some name.text
  cases stage with
  | waiting => exact moved_waiting hApart hProper hName hLines h hAccess
  | compared w =>
    cases hAccess
    exact ⟨entries, moved_quiet hProper hLines h hNone⟩
  | opened w inode =>
    unfold access at hAccess
    dsimp only at hAccess
    split at hAccess
    · cases hAccess
      exact ⟨entries, moved_quiet hProper hLines h hNone⟩
    · cases hAccess
  | locked w inode => exact moved_locked hApart hProper hName hLines h hAccess
  | replacing w inode lines =>
    cases hAccess
    exact ⟨_, moved_write hApart hProper hName g p l.toCrmMon h.1 h.2 rfl inode⟩
  | written w inode =>
    cases hAccess
    exact ⟨entries, moved_quiet hProper hLines h hNone⟩
  | returned w =>
    cases hAccess
    refine ⟨entries, moved_quiet hProper hLines (settled_of_reported h.1 h.2) ?_⟩
    split
    · exact List.forall_mem_singleton.mpr rfl
    · exact hNone
  | done => cases hAccess

end Invariant

/-! ## Runs of the loop -/

section Runs

variable {g : Globbing} {p : Patterns} {names : List NodeName} {s s' : Loop} {l : Look}

/-- The file follows what is seen of every node; what is not handed out waits. -/
structure Inv (g : Globbing) (names : List NodeName) (s : Loop) : Prop where
  file : ∀ f, s.file = some f → ∃ entries, f.lines = entries.map Entry.line ∧
    Proper names entries ∧ ∀ name, Follows entries s.log name (s.stages name.text)
  noFile : s.file = none → s.look = none ∧ ∀ name : NodeName, seen name.text s.log = [] ∧
    changes name.text s.log = notifications name.text s.log
  known : ∀ l, s.look = some l → ∀ name ∈ l.names, name ∈ names
  idle : s.look = none → s.stages = fun _ => .waiting
  handed : ∀ l, s.look = some l → ∀ t, t ∉ (l.params g).flatten → s.stages t = .waiting

theorem Look.nodesArray_eq (l : Look) : nodesArray g l.lines = l.names.map NodeName.text :=
  (Pass.nodesArray_eq_nodes g l.toPass).trans l.listed_eq

/-- Only nodes that are listed are handed out. -/
theorem Look.exists_name {t : Text} (ht : t ∈ (l.params g).flatten) :
    ∃ name ∈ l.names, name.text = t := by
  have hArgs : (l.params g).flatten = others l.toPass.nodes l.myNodeName 0 _ :=
    (Pass.children_eq g l.toPass).2
  rw [hArgs] at ht
  have hListed : t ∈ listed l.lines :=
    List.mem_of_mem_drop (List.mem_of_mem_take (List.mem_filter.mp ht).1)
  rw [l.listed_eq] at hListed
  exact List.mem_map.mp hListed

theorem mem_params_of_turn {t : Text} (h : s.turn g l t = true) : t ∈ (l.params g).flatten := by
  obtain ⟨args, hArgs, hTurn⟩ := List.any_eq_true.mp h
  rw [Bool.and_eq_true, List.contains_iff_mem] at hTurn
  exact List.mem_flatten.mpr ⟨args, hArgs, hTurn.1⟩

/-- At the first look each node is added to the file. -/
theorem settled_append {nodes : List NodeName} (hNodes : ∀ name ∈ nodes, name ∈ names)
    (hNodup : nodes.Nodup) {entries : List Entry} {log : List Event}
    (hProper : Proper names entries) (hSettled : ∀ name, Settled entries log name)
    (hNew : ∀ name ∈ nodes, statusOf entries name = none) (state : Text → Nat) :
    ∃ entries', (nodes.map NodeName.text).foldl (fun file node =>
          appendStatusFile file node (state node)) (entries.map Entry.line) =
        entries'.map Entry.line ∧ Proper names entries' ∧
      ∀ name, Settled entries' ((nodes.map NodeName.text).foldl (fun log node =>
        .found node (state node) :: log) log) name := by
  induction nodes generalizing entries log with
  | nil => exact ⟨entries, rfl, hProper, hSettled⟩
  | cons name nodes ih =>
    obtain ⟨hName, hNodes⟩ := List.forall_mem_cons.mp hNodes
    obtain ⟨hNone, hNew⟩ := List.forall_mem_cons.mp hNew
    obtain ⟨hNotMem, hNodup⟩ := List.nodup_cons.mp hNodup
    let added : List Entry := entries ++ [⟨name, nextStatus none (state name.text)⟩]
    have hAppend : appendStatusFile (entries.map Entry.line) name.text (state name.text) =
        added.map Entry.line := by
      rw [List.map_append]
      rfl
    have hProper' : Proper names added := by
      have hOwn : Proper names (ownCompare name (state name.text) entries).2 :=
        proper_ownCompare hProper hName
      rwa [ownCompare_none hNone] at hOwn
    have hStatus' : ∀ other, statusOf added other =
        if other = name then some (nextStatus none (state name.text))
        else statusOf entries other := fun other => statusOf_append hNone _
    rw [List.map_cons, List.foldl_cons, List.foldl_cons, hAppend]
    refine ih hNodes hNodup hProper' (fun other => ?_) fun other hOther => ?_
    · by_cases hSame : other = name
      · subst hSame
        have hChanged : (ownCompare other (state other.text) entries).1 = 1 ↔
            changed (seen other.text log) (state other.text) = true :=
          ownCompare_eq_one_iff (hSettled other).1
        rw [ownCompare_none hNone] at hChanged
        have hPending := pending_of_settled (hSettled other)
          (r := editOf other (state other.text) none) (by rw [hNone]) hChanged
        refine ⟨?_, hPending.reported.trans (List.append_nil _)⟩
        rw [hStatus', if_pos rfl, hPending.statusAfter_eq, hNone]
      · have hKept : statusOf added other = statusOf entries other := by
          rw [hStatus', if_neg hSame]
        have hWaiting : Follows entries log other .waiting := hSettled other
        have hOwn : ∀ e ∈ [Event.found name.text (state name.text)], e.node = some name.text :=
          List.forall_mem_singleton.mpr rfl
        exact hWaiting.frame hSame hKept hOwn (Or.inr rfl)
    · have hDiffers : other ≠ name := by
        rintro rfl
        exact hNotMem hOther
      rw [hStatus', if_neg hDiffers]
      exact hNew other hOther

theorem settled_made (hNames : ∀ name ∈ l.names, name ∈ names) {log : List Event}
    (hLog : ∀ name : NodeName, seen name.text log = [] ∧
      changes name.text log = notifications name.text log) :
    ∃ entries, makeStatusFile g l = entries.map Entry.line ∧ Proper names entries ∧
      ∀ name, Settled entries
        ((l.first g).foldl (fun log node => .found node (l.state g node) :: log) log) name := by
  have hFirst : l.first g =
      (l.names.take (countClusterNodes g l.lines)).map NodeName.text := by
    rw [Look.first, l.nodesArray_eq, List.map_take]
  have hNodup : l.names.Nodup := by
    have hListed := l.nodup
    rw [l.listed_eq] at hListed
    exact hListed.of_map _
  have hBegin : ∀ name, Settled [] log name := by
    intro name
    refine ⟨?_, (hLog name).2⟩
    rw [(hLog name).1]
    rfl
  have hProper : Proper names [] := ⟨List.nodup_nil, List.forall_mem_nil _⟩
  rw [makeStatusFile, hFirst]
  exact settled_append (fun name hName => hNames name (List.mem_of_mem_take hName))
    (hNodup.sublist (List.take_sublist _ _)) hProper hBegin (fun _ _ => rfl) (l.state g)

theorem inv_made (h : Inv g names s) (hFile : s.file = none)
    (hNames : ∀ name ∈ l.names, name ∈ names) :
    Inv g names { s with
      file := some ⟨0, makeStatusFile g l⟩
      log := (l.first g).foldl (fun log node => .found node (l.state g node) :: log) s.log } := by
  obtain ⟨hLook, hLog⟩ := h.noFile hFile
  obtain ⟨entries, hLines, hProper, hSettled⟩ := settled_made (g := g) hNames hLog
  refine ⟨fun f hf => ?_, fun hNone => ?_, h.known, h.idle, h.handed⟩
  · obtain rfl := Option.some.inj hf
    refine ⟨entries, ?_, hProper, fun name => ?_⟩
    · dsimp only
      exact hLines
    · dsimp only
      rw [h.idle hLook]
      exact hSettled name
  · exact absurd hNone (Option.some_ne_none _)

theorem inv_removed (h : Inv g names s) (hLook : s.look = none) :
    Inv g names { s with file := none, log := .removed :: s.log } := by
  have hDone : ∀ name : NodeName, changes name.text s.log = notifications name.text s.log := by
    intro name
    cases hFile : s.file with
    | none => exact ((h.noFile hFile).2 name).2
    | some f =>
      obtain ⟨entries, -, -, hFollows⟩ := h.file f hFile
      have hSettled := hFollows name
      rw [h.idle hLook] at hSettled
      exact hSettled.2
  refine ⟨fun f hf => ?_, fun _ => ⟨hLook, fun name => ⟨rfl, hDone name⟩⟩, h.known, h.idle,
    h.handed⟩
  cases hf

/-- The children are started. -/
theorem inv_started (h : Inv g names s) (hLook : s.look = none) {f : StatusText}
    (hFile : s.file = some f) (hNames : ∀ name ∈ l.names, name ∈ names) :
    Inv g names { s with look := some l, stages := fun _ => .waiting } := by
  have hStages := h.idle hLook
  refine ⟨fun f hf => ?_, fun hNone => ?_, ?_, fun hNone => ?_, fun _ _ _ _ => rfl⟩
  · obtain ⟨entries, hLines, hProper, hFollows⟩ := h.file f hf
    rw [hStages] at hFollows
    exact ⟨entries, hLines, hProper, hFollows⟩
  · rw [show s.file = none from hNone] at hFile
    cases hFile
  · rintro _ ⟨⟩
    exact hNames
  · cases hNone

/-- The children have ended. -/
theorem inv_waited (h : Inv g names s) (hLook : s.look = some l)
    (hDone : (l.params g).flatten.all (fun name => (s.stages name).isDone) = true) :
    Inv g names { s with look := none, stages := fun _ => .waiting } := by
  refine ⟨fun f hf => ?_, fun hNone => ?_, fun _ hNone => ?_, fun _ => rfl, fun _ hNone => ?_⟩
  · obtain ⟨entries, hLines, hProper, hFollows⟩ := h.file f hf
    refine ⟨entries, hLines, hProper, fun name => ?_⟩
    have hName := hFollows name
    by_cases hHanded : name.text ∈ (l.params g).flatten
    · have hEnded := List.all_eq_true.mp hDone _ hHanded
      rw [Stage.eq_done hEnded] at hName
      exact hName
    · rw [h.handed l hLook _ hHanded] at hName
      exact hName
  · have hSome := (h.noFile hNone).1
    rw [hLook] at hSome
    cases hSome
  · cases hNone
  · cases hNone

theorem step_skip (hStep : s.step g p .skip = some s') : s' = s := by
  unfold Loop.step at hStep
  dsimp only at hStep
  split at hStep
  · exact (Option.some.inj hStep).symm
  · cases hStep

theorem step_remove (hStep : s.step g p .remove = some s') :
    s.look = none ∧ s' = { s with file := none, log := .removed :: s.log } := by
  unfold Loop.step at hStep
  dsimp only at hStep
  split at hStep
  · rename_i hLook
    exact ⟨Option.isNone_iff_eq_none.mp hLook, (Option.some.inj hStep).symm⟩
  · cases hStep

/-- A look makes the file, or removes it where no node is listed, or starts the children. -/
theorem step_look (hStep : s.step g p (.look l) = some s') : s.look = none ∧
    (s.file = none ∧ s' = { s with
        file := some ⟨0, makeStatusFile g l⟩
        log := (l.first g).foldl (fun log node => .found node (l.state g node) :: log) s.log } ∨
      s' = { s with file := none, log := .removed :: s.log } ∨
      (∃ f, s.file = some f) ∧ s' = { s with look := some l, stages := fun _ => .waiting }) := by
  unfold Loop.step at hStep
  dsimp only at hStep
  split at hStep
  · rename_i hLook
    refine ⟨Option.isNone_iff_eq_none.mp hLook, ?_⟩
    split at hStep
    · rename_i hFile
      exact Or.inl ⟨hFile, (Option.some.inj hStep).symm⟩
    · rename_i f hFile
      split at hStep
      · exact Or.inr (Or.inl (Option.some.inj hStep).symm)
      · exact Or.inr (Or.inr ⟨⟨f, hFile⟩, (Option.some.inj hStep).symm⟩)
  · cases hStep

theorem step_wait (hStep : s.step g p .wait = some s') :
    ∃ l, s.look = some l ∧ (l.params g).flatten.all (fun name => (s.stages name).isDone) = true ∧
      s' = { s with look := none, stages := fun _ => .waiting } := by
  unfold Loop.step at hStep
  dsimp only at hStep
  split at hStep
  · rename_i l hLook
    split at hStep
    · rename_i hDone
      exact ⟨l, hLook, hDone, (Option.some.inj hStep).symm⟩
    · cases hStep
  · cases hStep

theorem step_node {t : Text} (hStep : s.step g p (.node t) = some s') :
    ∃ l f stage' f' events, s.look = some l ∧ s.file = some f ∧ s.turn g l t = true ∧
      access g p l f (s.free g l t) t (s.stages t) = some (stage', f', events) ∧
      s' = { s with
        file := some f', stages := Function.update s.stages t stage', log := events ++ s.log } := by
  obtain ⟨file, look, stages, log⟩ := s
  cases look with
  | none => cases hStep
  | some l =>
    cases file with
    | none => cases hStep
    | some f =>
      unfold Loop.step at hStep
      dsimp only at hStep
      split at hStep
      · rename_i hTurn
        obtain ⟨⟨stage', f', events⟩, hAccess, rfl⟩ := Option.map_eq_some_iff.mp hStep
        exact ⟨l, f, stage', f', events, rfl, rfl, hTurn, hAccess, rfl⟩
      · cases hStep

/-- Where `sed` has read the file for another node, a step of a run that is undisturbed does not
write it. -/
theorem isReplacing_of_undisturbed (h : Inv g names s) (hLook : s.look = some l) {t other : Text}
    (hFree : s.undisturbed g (.node t) = true) (hWrites : (s.stages t).writes = true)
    (hOther : other ≠ t) : (s.stages other).isReplacing = false := by
  by_cases hHanded : other ∈ (l.params g).flatten
  · unfold Loop.undisturbed at hFree
    rw [hLook] at hFree
    dsimp only at hFree
    rw [hWrites, Bool.not_true, Bool.false_or] at hFree
    have hThis := List.all_eq_true.mp hFree other hHanded
    rw [Bool.or_eq_true, decide_eq_true_iff, Bool.not_eq_true'] at hThis
    exact hThis.resolve_left hOther
  · rw [h.handed l hLook other hHanded]
    rfl

/-- The next access for a node. -/
theorem inv_node (hApart : Apart names) (h : Inv g names s) {t : Text}
    (hFree : s.undisturbed g (.node t) = true) (hStep : s.step g p (.node t) = some s') :
    Inv g names s' := by
  obtain ⟨l, f, stage', f', events, hLook, hFile, hTurn, hAccess, rfl⟩ := step_node hStep
  have hHanded := mem_params_of_turn hTurn
  obtain ⟨name, hName, rfl⟩ := l.exists_name hHanded
  obtain ⟨entries, hLines, hProper, hFollows⟩ := h.file f hFile
  obtain ⟨entries', hMoved⟩ := access_moved hApart hProper (h.known l hLook name hName) hLines
    (hFollows name) hAccess
  refine ⟨fun f₁ hf => ?_, fun hNone => ?_, h.known, fun hNone => ?_, fun l₁ hl t ht => ?_⟩
  · obtain rfl := Option.some.inj hf
    refine ⟨entries', hMoved.lines, hMoved.proper, fun other => ?_⟩
    dsimp only
    by_cases hSame : other = name
    · subst hSame
      rw [Function.update_self]
      exact hMoved.follows
    · have hText : other.text ≠ name.text := fun hText => hSame (NodeName.ext hText)
      rw [Function.update_of_ne hText]
      refine (hFollows other).frame hSame (hMoved.others other hSame) hMoved.own ?_
      exact hMoved.quiet.imp_right fun hWrites =>
        isReplacing_of_undisturbed h hLook hFree hWrites hText
  · exact absurd hNone (Option.some_ne_none _)
  · rw [show s.look = none from hNone] at hLook
    cases hLook
  · have hOther : t ≠ name.text := by
      rintro rfl
      obtain rfl := Option.some.inj (hLook.symm.trans hl)
      exact ht hHanded
    dsimp only
    rw [Function.update_of_ne hOther]
    exact h.handed l₁ hl t ht

theorem inv_step (hApart : Apart names) (h : Inv g names s) {label : Label}
    (hNames : ∀ name ∈ label.names, name ∈ names) (hFree : s.undisturbed g label = true)
    (hStep : s.step g p label = some s') : Inv g names s' := by
  cases label with
  | skip =>
    rw [step_skip hStep]
    exact h
  | remove =>
    obtain ⟨hLook, rfl⟩ := step_remove hStep
    exact inv_removed h hLook
  | look l =>
    obtain ⟨hLook, ⟨hFile, rfl⟩ | rfl | ⟨⟨f, hFile⟩, rfl⟩⟩ := step_look hStep
    · exact inv_made h hFile hNames
    · exact inv_removed h hLook
    · exact inv_started h hLook hFile hNames
  | node t => exact inv_node hApart h hFree hStep
  | wait =>
    obtain ⟨l, hLook, hDone, rfl⟩ := step_wait hStep
    exact inv_waited h hLook hDone

/-- The step is undisturbed, and looks at no other nodes than these. -/
def Regular (g : Globbing) (names : List NodeName) (s : Loop) (label : Label) : Prop :=
  (∀ name ∈ label.names, name ∈ names) ∧ s.undisturbed g label = true

theorem inv_init (h : (monitor g p).init s) : Inv g names s := by
  rw [h]
  refine ⟨fun f hf => ?_, fun _ => ⟨rfl, fun _ => ⟨rfl, rfl⟩⟩, fun l hl => ?_, fun _ => rfl,
    fun l hl => ?_⟩
  · cases hf
  · cases hl
  · cases hl

theorem inv_of_run (hApart : Apart names) (h : (monitor g p).ReachableIf (Regular g names) s) :
    Inv g names s :=
  Trans.invariant_of_step (fun _ => inv_init)
    (fun _ _ _ hInv hC hStep => inv_step hApart hInv hC.1 hC.2 hStep) h

/-- What is left to be notified: at most one change, of a node at which a child is. -/
theorem Follows.left {entries : List Entry} {log : List Event} {name : NodeName} {stage : Stage}
    (h : Follows entries log name stage) :
    ∃ left, changes name.text log = notifications name.text log ++ left ∧ left.length ≤ 1 ∧
      (stage = .waiting → left = []) := by
  have hSettled : Settled entries log name → ∃ left, changes name.text log =
      notifications name.text log ++ left ∧ left.length ≤ 1 ∧ (stage = .waiting → left = []) :=
    fun h => ⟨[], h.2.trans (List.append_nil _).symm, Nat.zero_le 1, fun _ => rfl⟩
  have hReported : ∀ w, stage ≠ .waiting → Reported log name w → ∃ left, changes name.text log =
      notifications name.text log ++ left ∧ left.length ≤ 1 ∧ (stage = .waiting → left = []) := by
    intro w hStage h
    refine ⟨_, h, ?_, fun hWaiting => absurd hWaiting hStage⟩
    split
    · exact Nat.le_refl 1
    · exact Nat.zero_le 1
  cases stage with
  | waiting | done => exact hSettled h
  | compared w | opened w inode | locked w inode => exact hReported w (by simp) h.reported
  | replacing w inode lines => exact hReported w (by simp) h.1.reported
  | written w inode | returned w => exact hReported w (by simp) h.2

theorem left_of_inv (h : Inv g names s) (name : NodeName) :
    ∃ left, changes name.text s.log = notifications name.text s.log ++ left ∧ left.length ≤ 1 ∧
      (s.look = none → left = []) := by
  cases hFile : s.file with
  | none =>
    obtain ⟨-, hLog⟩ := h.noFile hFile
    exact ⟨[], (hLog name).2.trans (List.append_nil _).symm, Nat.zero_le 1, fun _ => rfl⟩
  | some f =>
    obtain ⟨entries, -, -, hFollows⟩ := h.file f hFile
    obtain ⟨left, hLeft, hOne, hNone⟩ := (hFollows name).left
    exact ⟨left, hLeft, hOne, fun hLook => hNone (congrFun (h.idle hLook) _)⟩

/-- In every run of the main loop in which no name of a node is the end of another one's, and in
which no child writes the file between the reading and the renaming of another child's `sed`, a node
is notified when it is found in a definite state other than the last definite one since the file was
made, and only then; whatever the order of the children's steps. -/
theorem notifications_eq (hApart : Apart names)
    (h : (monitor g p).ReachableIf (Regular g names) s) (name : NodeName) :
    ∃ left, changes name.text s.log = notifications name.text s.log ++ left ∧ left.length ≤ 1 ∧
      (s.look = none → left = []) :=
  left_of_inv (inv_of_run hApart h) name

/-! ### A single child -/

/-- A child takes up a node when it is done with those before it. -/
def InOrder (g : Globbing) (s : Loop) : Prop :=
  ∀ l, s.look = some l → ∀ args ∈ l.params g, ∀ before t after, args = before ++ t :: after →
    (s.stages t).isWaiting = false → ∀ b ∈ before, (s.stages b).isDone = true

theorem Look.params_nodup {args : List Text} (hArgs : args ∈ l.params g) : args.Nodup := by
  have hAll : (l.params g).flatten = others l.toPass.nodes l.myNodeName 0 _ :=
    (Pass.children_eq g l.toPass).2
  have hNodup : (others l.toPass.nodes l.myNodeName 0
      (totalWork (l.toPass.nodes.length % 256) l.maxChildProcess)).Nodup :=
    ((l.nodup.sublist (List.drop_sublist _ _)).sublist (List.take_sublist _ _)).filter _
  rw [← hAll] at hNodup
  exact (List.nodup_flatten.mp hNodup).1 args hArgs

/-- With `MAX_CHILD_PROCESS=1` there is one child at most. -/
theorem Look.params_single (hOne : l.maxChildProcess = 1) :
    ∃ args, ∀ args' ∈ l.params g, args' = args := by
  unfold Look.params Pass.children distribute
  rw [hOne]
  split
  · exact ⟨[], List.forall_mem_nil _⟩
  · have hJobs : (if countClusterNodes g l.lines ≤ 1 then countClusterNodes g l.lines else 1) =
        1 := by
      split
      · omega
      · rfl
    dsimp only
    rw [hJobs]
    exact ⟨_, List.forall_mem_singleton.mpr rfl⟩

theorem inOrder_node {t : Text} (h : InOrder g s)
    (hOne : ∀ l, s.look = some l → l.maxChildProcess = 1)
    (hStep : s.step g p (.node t) = some s') : InOrder g s' := by
  obtain ⟨l, f, stage', f', events, hLook, -, hTurn, hAccess, rfl⟩ := step_node hStep
  have hBusy : (s.stages t).isDone = false := by
    cases hStage : s.stages t with
    | done =>
      rw [hStage] at hAccess
      cases hAccess
    | waiting | compared w | opened w inode | locked w inode | replacing w inode lines
    | written w inode | returned w => rfl
  intro l₁ hl args hArgs before u after hSplit hStage b hb
  obtain rfl := Option.some.inj (hLook.symm.trans hl)
  dsimp only at hStage ⊢
  have hDone : (s.stages b).isDone = true := by
    by_cases hSame : u = t
    · subst hSame
      -- the nodes before it in its child are done
      obtain ⟨args', hArgs', hTurn⟩ := List.any_eq_true.mp hTurn
      obtain ⟨only, hOnly⟩ := l.params_single (g := g) (hOne l hLook)
      obtain rfl := (hOnly args' hArgs').trans (hOnly args hArgs).symm
      rw [Bool.and_eq_true] at hTurn
      refine List.all_eq_true.mp hTurn.2 b ?_
      have hNodup := l.params_nodup hArgs
      rw [hSplit, List.nodup_append] at hNodup
      have hOther : ∀ x ∈ before, decide (x ≠ u) = true := fun x hx =>
        decide_eq_true (hNodup.2.2 x hx u List.mem_cons_self)
      rw [hSplit, List.takeWhile_append_of_pos hOther]
      exact List.mem_append_left _ hb
    · rw [Function.update_of_ne hSame] at hStage
      exact h l hLook args hArgs before u after hSplit hStage b hb
  have hNot : b ≠ t := by
    rintro rfl
    rw [hDone] at hBusy
    cases hBusy
  rw [Function.update_of_ne hNot]
  exact hDone

/-- One of two nodes of a child is done, or it waits. -/
theorem InOrder.cases (h : InOrder g s) (hLook : s.look = some l) {args : List Text}
    (hArgs : args ∈ l.params g) {t other : Text} (ht : t ∈ args) (hOther : other ∈ args)
    (hNe : other ≠ t) (hStage : (s.stages t).isWaiting = false)
    (hBusy : (s.stages t).isDone = false) :
    (s.stages other).isDone = true ∨ (s.stages other).isWaiting = true := by
  obtain ⟨before, after, hSplit⟩ := List.append_of_mem ht
  rw [hSplit, List.mem_append, List.mem_cons] at hOther
  rcases hOther with hBefore | hSame | hAfter
  · exact Or.inl (h l hLook args hArgs before t after hSplit hStage other hBefore)
  · exact absurd hSame hNe
  · refine Or.inr ?_
    by_contra hNot
    rw [Bool.not_eq_true] at hNot
    obtain ⟨between, rest, rfl⟩ := List.append_of_mem hAfter
    have hDone := h l hLook args hArgs (before ++ t :: between) other rest
      (by rw [hSplit, List.append_assoc, List.cons_append]) hNot t
      (List.mem_append_right _ List.mem_cons_self)
    rw [hDone] at hBusy
    cases hBusy

/-- With a single child no step is disturbed. -/
theorem undisturbed_of_inOrder (h : InOrder g s)
    (hOne : ∀ l, s.look = some l → l.maxChildProcess = 1) {t : Text}
    (hStep : s.step g p (.node t) = some s') : s.undisturbed g (.node t) = true := by
  obtain ⟨l, f, stage', f', events, hLook, -, hTurn, hAccess, -⟩ := step_node hStep
  obtain ⟨only, hOnly⟩ := l.params_single (g := g) (hOne l hLook)
  unfold Loop.undisturbed
  rw [hLook]
  dsimp only
  by_cases hWrites : (s.stages t).writes = true
  · obtain ⟨hStage, hBusy⟩ := Stage.of_writes hWrites
    obtain ⟨args, hArgs, hTurn⟩ := List.any_eq_true.mp hTurn
    rw [Bool.and_eq_true, List.contains_iff_mem] at hTurn
    rw [hWrites, Bool.not_true, Bool.false_or]
    refine List.all_eq_true.mpr fun other hMem => ?_
    obtain ⟨args', hArgs', hOther⟩ := List.mem_flatten.mp hMem
    obtain rfl := (hOnly args' hArgs').trans (hOnly args hArgs).symm
    by_cases hSame : other = t
    · rw [decide_eq_true hSame, Bool.true_or]
    · rw [Stage.not_replacing (h.cases hLook hArgs' hTurn.1 hOther hSame hStage hBusy),
        Bool.not_false, Bool.or_true]
  · rw [Bool.not_eq_true] at hWrites
    rw [hWrites, Bool.not_false, Bool.true_or]

/-- The rounds under way have one child. -/
structure Single (g : Globbing) (s : Loop) : Prop where
  one : ∀ l, s.look = some l → l.maxChildProcess = 1
  inOrder : InOrder g s

theorem single_of_none (hLook : s.look = none) : Single g s := by
  refine ⟨fun l hl => ?_, fun l hl => ?_⟩
  · rw [hLook] at hl
    cases hl
  · rw [hLook] at hl
    cases hl

theorem single_step (h : Single g s) {label : Label} (hOne : label.single = true)
    (hStep : s.step g p label = some s') : Single g s' := by
  cases label with
  | skip =>
    rw [step_skip hStep]
    exact h
  | remove =>
    obtain ⟨hLook, rfl⟩ := step_remove hStep
    exact single_of_none hLook
  | look l =>
    obtain ⟨hLook, ⟨-, rfl⟩ | rfl | ⟨-, rfl⟩⟩ := step_look hStep
    · exact single_of_none hLook
    · exact single_of_none hLook
    · refine ⟨fun l₁ hl => ?_, fun l₁ _ args _ before t after _ hStage => ?_⟩
      · obtain rfl := Option.some.inj hl
        exact of_decide_eq_true hOne
      · cases hStage
  | node t =>
    obtain ⟨l, f, stage', f', events, -, -, -, -, rfl⟩ := step_node hStep
    exact ⟨h.one, inOrder_node h.inOrder h.one hStep⟩
  | wait =>
    obtain ⟨l, -, -, rfl⟩ := step_wait hStep
    exact single_of_none rfl

/-- With a single child no step of a run is disturbed. -/
theorem notifications_eq_single (hApart : Apart names)
    (h : (monitor g p).ReachableIf (fun _ label =>
      (∀ name ∈ label.names, name ∈ names) ∧ label.single = true) s) (name : NodeName) :
    ∃ left, changes name.text s.log = notifications name.text s.log ++ left ∧ left.length ≤ 1 ∧
      (s.look = none → left = []) := by
  have hBoth : Inv g names s ∧ Single g s := by
    refine Trans.invariant_of_step (I := fun s => Inv g names s ∧ Single g s)
      (fun s₀ h₀ => ⟨inv_init h₀, ?_⟩) (fun s₁ label s₂ hI hC hStep => ?_) h
    · exact single_of_none (h₀ ▸ rfl)
    · obtain ⟨hInv, hSingle⟩ := hI
      refine ⟨inv_step hApart hInv hC.1 ?_ hStep, single_step hSingle hC.2 hStep⟩
      cases label with
      | node t => exact undisturbed_of_inOrder hSingle.inOrder hSingle.one hStep
      | skip | remove | look l | wait => rfl
  exact left_of_inv hBoth.1 name

end Runs

/-! ## Three children -/

def nodeA : NodeName := ⟨"a".toList, by decide, List.all_eq_true.mp (by decide), by decide⟩

def nodeB : NodeName := ⟨"b".toList, by decide, List.all_eq_true.mp (by decide), by decide⟩

def nodeC : NodeName := ⟨"c".toList, by decide, List.all_eq_true.mp (by decide), by decide⟩

def nodeD : NodeName := ⟨"d".toList, by decide, List.all_eq_true.mp (by decide), by decide⟩

/-- All nodes are online, and then `a` alone, where the script runs. -/
def allOnline : Look where
  toPass := fourNodes
  raCount := -1
  names := [nodeA, nodeB, nodeC, nodeD]
  listed_eq := rfl

def threeOffline : Look where
  lines := ["Online: [ a ]".toList, "OFFLINE: [ b c d ]".toList]
  noPattern := noPattern_of_all (by decide)
  nodup := by decide
  noOption := by decide
  myNodeName := ['a']
  maxChildProcess := 4
  one_le := Nat.le_add_left 1 3
  raCount := -1
  names := [nodeA, nodeB, nodeC, nodeD]
  listed_eq := rfl

/-- A round with so many children, which take these steps, after a first one. -/
def roundOf (children : Nat) (hOne : 1 ≤ children) (steps : List NodeName) : List Label :=
  [.look { allOnline with maxChildProcess := children, one_le := hOne }, .skip,
    .look { threeOffline with maxChildProcess := children, one_le := hOne }] ++
    steps.map (fun name => .node name.text) ++ [.wait]

/-- All children have read the file before one of them writes it. -/
theorem notifications_eq_stopped : ∃ s : Loop, s.look = none ∧
    notifications nodeB.text s.log = ["STOPPED".toList] ∧
    changes nodeB.text s.log = ["STOPPED".toList] := by
  obtain ⟨s, hReach, hs⟩ := Trans.exists_reachableIf_of_runIf
    (T := monitor noFiles equality) (s := ⟨none, none, fun _ => .waiting, []⟩)
    (c := fun s label => label.names.all (· ∈ [nodeA, nodeB, nodeC, nodeD]) &&
      s.undisturbed noFiles label)
    (roundOf 4 (by decide) ([nodeB, nodeC, nodeD, nodeB, nodeC, nodeD] ++
      List.replicate 5 nodeB ++ List.replicate 5 nodeC ++ List.replicate 5 nodeD))
    (fun s => s.look.isNone && decide (notifications nodeB.text s.log = ["STOPPED".toList])) rfl
    (by decide)
  simp only [Bool.and_eq_true, decide_eq_true_eq, Option.isNone_iff_eq_none] at hs
  have hRun : (monitor noFiles equality).ReachableIf
      (Regular noFiles [nodeA, nodeB, nodeC, nodeD]) s := by
    refine Trans.reachableIf_mono (fun s label hc => ?_) hReach
    rw [Bool.and_eq_true] at hc
    exact ⟨fun name hName => of_decide_eq_true (List.all_eq_true.mp hc.1 name hName), hc.2⟩
  have hApart : Apart [nodeA, nodeB, nodeC, nodeD] := by
    unfold Apart
    decide
  obtain ⟨left, hLeft, -, hNone⟩ := notifications_eq hApart hRun nodeB
  refine ⟨s, hs.1, hs.2, ?_⟩
  rw [hLeft, hNone hs.1, List.append_nil]
  exact hs.2

/-- The child of `c` gets the lock of the first file, the one of `d` that of the file that the child
of `b` has put in its place. What is written for `c` is lost, and `c` is notified again. -/
example : ((monitor noFiles equality).runIf (fun _ _ => true) ⟨none, none, fun _ => .waiting, []⟩
    (roundOf 4 (by decide) (List.replicate 4 nodeB ++ [nodeC, nodeC, nodeB, nodeB, nodeC, nodeC,
      nodeD, nodeD, nodeD, nodeD, nodeC, nodeD, nodeC, nodeC, nodeD, nodeD, nodeB]) ++
    .look threeOffline :: (List.replicate 7 nodeC).map fun name => .node name.text)).any
      (fun s => decide (notifications nodeC.text s.log = ["STOPPED".toList, "STOPPED".toList]) &&
        decide (changes nodeC.text s.log = ["STOPPED".toList])) = true := by
  decide

/-- One child comes to the nodes one after the other. -/
theorem notifications_eq_single_stopped : ∃ s : Loop, s.look = none ∧
    notifications nodeC.text s.log = ["STOPPED".toList] ∧
    changes nodeC.text s.log = ["STOPPED".toList] := by
  obtain ⟨s, hReach, hs⟩ := Trans.exists_reachableIf_of_runIf
    (T := monitor noFiles equality) (s := ⟨none, none, fun _ => .waiting, []⟩)
    (c := fun _ label => label.names.all (· ∈ [nodeA, nodeB, nodeC, nodeD]) && label.single)
    (roundOf 1 (by decide) (List.replicate 7 nodeB ++ List.replicate 7 nodeC ++
      List.replicate 7 nodeD))
    (fun s => s.look.isNone && decide (notifications nodeC.text s.log = ["STOPPED".toList])) rfl
    (by decide)
  simp only [Bool.and_eq_true, decide_eq_true_eq, Option.isNone_iff_eq_none] at hs
  have hRun : (monitor noFiles equality).ReachableIf (fun _ label =>
      (∀ name ∈ label.names, name ∈ [nodeA, nodeB, nodeC, nodeD]) ∧ label.single = true) s := by
    refine Trans.reachableIf_mono (fun s label hc => ?_) hReach
    rw [Bool.and_eq_true] at hc
    exact ⟨fun name hName => of_decide_eq_true (List.all_eq_true.mp hc.1 name hName), hc.2⟩
  have hApart : Apart [nodeA, nodeB, nodeC, nodeD] := by
    unfold Apart
    decide
  obtain ⟨left, hLeft, -, hNone⟩ := notifications_eq_single hApart hRun nodeC
  refine ⟨s, hs.1, hs.2, ?_⟩
  rw [hLeft, hNone hs.1, List.append_nil]
  exact hs.2

end MasakariHA.Monitors.HostmonitorSh
