import MasakariHA.Monitors.HostmonitorSh.NodeStatus

/-!
# The last states of the nodes

What the file of the last states remembers of a node, and how `compare_status_file` finds it there
and what it decides to write.

* `changed`: a node is in another state than the last one that was not between two others;
* `statusAfter`: the status after the states of a node, and `definite_statusAfter`: it remembers the
  last definite one;
* `readStatus`: `compare_status_file` up to the lock of the file, and `compareStatusFile_eq_apply`:
  the function without anyone else writing;
* `readStatus_eq`, `apply_editOf`: among names that are apart the entry of the node is read and
  written.
-/

namespace MasakariHA.Monitors.HostmonitorSh

open Lib Lib.Shell

/-! ## The status of a node -/

/-- The last of the states that is not one between two others. -/
def lastDefinite (states : List Nat) : Option Nat := (states.filter (· < 2)).getLast?

/-- The state is definite, and another one than the last definite one. -/
def changed (states : List Nat) (state : Nat) : Bool :=
  state < 2 && (lastDefinite states).any (· ≠ state)

/-- The status that is written for a state. -/
def nextStatus (status : Option NodeStatus) (state : Nat) : NodeStatus :=
  match status with
  | none => if state = 0 then .started else if state = 1 then .stopped else .unknown
  | some s => s.next state

/-- The status after the states of a node. -/
def statusAfter (states : List Nat) : Option NodeStatus :=
  states.foldl (fun status state => some (nextStatus status state)) none

/-- The definite state that a status remembers. -/
def NodeStatus.definite : NodeStatus → Option Nat
  | .started | .stopping => some 0
  | .stopped | .starting => some 1
  | .unknown => none

theorem statusAfter_append (states : List Nat) (state : Nat) :
    statusAfter (states ++ [state]) = some (nextStatus (statusAfter states) state) := by
  simp [statusAfter]

theorem lastDefinite_append (states : List Nat) (state : Nat) :
    lastDefinite (states ++ [state]) =
      if state < 2 then some state else lastDefinite states := by
  unfold lastDefinite
  rw [List.filter_append]
  by_cases hDefinite : state < 2
  · have hKept : [state].filter (· < 2) = [state] :=
      List.filter_cons_of_pos (decide_eq_true hDefinite)
    rw [if_pos hDefinite, hKept, List.getLast?_append]
    rfl
  · have hNone : [state].filter (· < 2) = [] :=
      List.filter_cons_of_neg fun hLess => hDefinite (of_decide_eq_true hLess)
    rw [if_neg hDefinite, hNone, List.append_nil]

theorem definite_next (s : NodeStatus) (state : Nat) :
    (s.next state).definite = if state < 2 then some state else s.definite := by
  unfold NodeStatus.next
  by_cases hStarted : state = 0
  · subst hStarted
    rfl
  · rw [if_neg hStarted]
    by_cases hStopped : state = 1
    · subst hStopped
      rfl
    · rw [if_neg hStopped, if_neg (by omega)]
      cases s <;> rfl

/-- The status of a node remembers the last definite state. -/
theorem definite_statusAfter {states : List Nat} {s : NodeStatus}
    (h : statusAfter states = some s) : s.definite = lastDefinite states := by
  induction states using List.reverseRecOn generalizing s with
  | nil => cases h
  | append_singleton states state ih =>
    rw [statusAfter_append] at h
    obtain rfl := Option.some.inj h
    rw [lastDefinite_append]
    cases hBefore : statusAfter states with
    | some before => rw [nextStatus, definite_next, ih hBefore]
    | none =>
      have hNil : states = [] := by
        rcases List.eq_nil_or_concat states with hNil | ⟨init, last, rfl⟩
        · exact hNil
        · rw [List.concat_eq_append, statusAfter_append] at hBefore
          cases hBefore
      subst hNil
      unfold nextStatus
      by_cases hStarted : state = 0
      · subst hStarted
        rfl
      · by_cases hStopped : state = 1
        · subst hStopped
          rfl
        · simp only [if_neg hStarted, if_neg hStopped, if_neg (show ¬ state < 2 by omega)]
          rfl

/-- What is returned for a status that stands in the file. -/
theorem change_eq_one_iff (s : NodeStatus) (state : Nat) :
    ¬ (state = 0 ∧ s = .started ∨ state = 1 ∧ s = .stopped) ∧ s.change state = 1 ↔
      state < 2 ∧ ∃ last, s.definite = some last ∧ last ≠ state := by
  unfold NodeStatus.change
  by_cases hStarted : state = 0
  · subst hStarted
    cases s <;> simp [NodeStatus.definite]
  · by_cases hStopped : state = 1
    · subst hStopped
      cases s <;> simp [NodeStatus.definite]
    · rw [if_neg hStarted, if_neg hStopped]
      refine iff_of_false (fun h => by simp at h) fun h => by omega

/-! ## The entry of a node -/

section Entries

variable {g : Globbing} {p : Patterns} {names : List NodeName} {entries : List Entry}
  {name other : NodeName} {state : Nat}

/-- No name of a node is the end of another one's. -/
def Apart (names : List NodeName) : Prop :=
  ∀ name ∈ names, ∀ other ∈ names, name.text <:+ other.text → name = other

def statusOf (entries : List Entry) (name : NodeName) : Option NodeStatus :=
  (entries.find? fun e => e.name = name).map Entry.status

/-- Entries of nodes that are known, one for each. -/
structure Proper (names : List NodeName) (entries : List Entry) : Prop where
  nodup : (entries.map Entry.name).Nodup
  known : ∀ e ∈ entries, e.name ∈ names

/-- Among names that are apart the text is compared as the entry of the node is. -/
theorem compareStatusFile_eq (hApart : Apart names) (h : Proper names entries)
    (hName : name ∈ names) (m : CrmMon) (state : Nat) :
    compareStatusFile g p (entries.map Entry.line) name.text state =
      ((ownCompare name state entries).1, (ownCompare name state entries).2.map Entry.line) := by
  have hCompared : Poll.Compared ⟨g, p, m, 0, ⟨entries, h.nodup⟩, name, state⟩ := by
    rw [compare_iff]
    exact Or.inl fun e he hSuffix => (hApart name hName e.name (h.known e he) hSuffix).symm
  exact hCompared

theorem find?_eq_none (h : statusOf entries name = none) :
    (entries.find? fun e => e.name = name) = none :=
  Option.map_eq_none_iff.mp h

/-- What is returned and written for a node that has no entry. -/
theorem ownCompare_none (h : statusOf entries name = none) :
    ownCompare name state entries = (2, entries ++ [⟨name, nextStatus none state⟩]) := by
  rw [ownCompare, find?_eq_none h]
  rfl

theorem statusOf_append (h : statusOf entries name = none) (s : NodeStatus) :
    statusOf (entries ++ [⟨name, s⟩]) other =
      if other = name then some s else statusOf entries other := by
  unfold statusOf
  rw [List.find?_append]
  by_cases hSame : other = name
  · subst hSame
    rw [find?_eq_none h, if_pos rfl]
    simp
  · rw [if_neg hSame]
    have hOther : name ≠ other := fun h => hSame h.symm
    simp [hOther]

theorem statusOf_map (f : NodeStatus → NodeStatus) :
    statusOf (entries.map fun e => if e.name = name then ⟨name, f e.status⟩ else e) other =
      if other = name then (statusOf entries other).map f else statusOf entries other := by
  unfold statusOf
  induction entries with
  | nil => split <;> rfl
  | cons e entries ih =>
    rw [List.map_cons, List.find?_cons, List.find?_cons]
    by_cases hName : e.name = name
    · rw [if_pos hName]
      by_cases hSame : other = name
      · simp [hSame, hName]
      · have hOther : name ≠ other := fun h => hSame h.symm
        simpa [hSame, hName, hOther] using ih
    · rw [if_neg hName]
      by_cases hFound : e.name = other
      · have hNot : other ≠ name := fun h => hName (hFound.trans h)
        simp [hFound, hNot]
      · simpa [hFound] using ih

/-- What is written for a node, and for the others. -/
theorem statusOf_ownCompare :
    statusOf (ownCompare name state entries).2 other =
      if other = name then some (nextStatus (statusOf entries name) state)
      else statusOf entries other := by
  cases hStatus : statusOf entries name with
  | none => rw [ownCompare_none hStatus, statusOf_append hStatus]
  | some s =>
    obtain ⟨own, hFind, rfl⟩ := Option.map_eq_some_iff.mp hStatus
    rw [ownCompare, hFind]
    dsimp only
    split
    · rename_i hSame
      by_cases hOther : other = name
      · rw [if_pos hOther, hOther, hStatus]
        rcases hSame with ⟨rfl, hStarted⟩ | ⟨rfl, hStopped⟩
        · rw [hStarted]
          rfl
        · rw [hStopped]
          rfl
      · rw [if_neg hOther]
    · rw [statusOf_map]
      by_cases hOther : other = name
      · rw [if_pos hOther, if_pos hOther, hOther, hStatus]
        rfl
      · rw [if_neg hOther, if_neg hOther]

theorem proper_ownCompare (h : Proper names entries) (hName : name ∈ names) :
    Proper names (ownCompare name state entries).2 := by
  cases hStatus : statusOf entries name with
  | none =>
    rw [ownCompare_none hStatus]
    have hNew : ∀ e ∈ entries, e.name ≠ name := by
      intro e he hSame
      exact List.find?_eq_none.mp (find?_eq_none hStatus) e he (decide_eq_true hSame)
    refine ⟨?_, fun e he => ?_⟩
    · rw [List.map_append, List.map_singleton, List.nodup_append]
      refine ⟨h.nodup, List.nodup_singleton _, ?_⟩
      rintro _ hMem _ hOwn rfl
      obtain ⟨e, he, hSame⟩ := List.mem_map.mp hMem
      exact hNew e he (hSame.trans (List.mem_singleton.mp hOwn))
    · rcases List.mem_append.mp he with he | he
      · exact h.known e he
      · rw [List.mem_singleton.mp he]
        exact hName
  | some s =>
    obtain ⟨own, hFind, -⟩ := Option.map_eq_some_iff.mp hStatus
    rw [ownCompare, hFind]
    dsimp only
    split
    · exact h
    · have hNames : (entries.map fun e =>
          if e.name = name then (⟨name, e.status.next state⟩ : Entry) else e).map Entry.name =
          entries.map Entry.name := by
        rw [List.map_map]
        refine List.map_congr_left fun e _ => ?_
        rw [Function.comp_apply]
        split
        · rename_i hSame
          exact hSame.symm
        · rfl
      refine ⟨hNames ▸ h.nodup, fun e he => ?_⟩
      have hMem := List.mem_map_of_mem (f := Entry.name) he
      rw [hNames] at hMem
      obtain ⟨e', he', hSame⟩ := List.mem_map.mp hMem
      exact hSame ▸ h.known e' he'

/-- A change is notified, and nothing else is. -/
theorem ownCompare_eq_one_iff {states : List Nat} (h : statusOf entries name = statusAfter states) :
    (ownCompare name state entries).1 = 1 ↔ changed states state = true := by
  have hChanged : changed states state = true ↔
      state < 2 ∧ ∃ last, lastDefinite states = some last ∧ last ≠ state := by
    unfold changed
    rw [Bool.and_eq_true, decide_eq_true_iff, Option.any_eq_true]
    simp only [decide_eq_true_eq]
  rw [hChanged]
  cases hStatus : statusOf entries name with
  | none =>
    rw [ownCompare_none hStatus]
    refine iff_of_false (show ¬ 2 = 1 by decide) ?_
    rintro ⟨-, last, hLast, -⟩
    rw [hStatus] at h
    rcases List.eq_nil_or_concat states with rfl | ⟨init, state', rfl⟩
    · cases hLast
    · rw [List.concat_eq_append, statusAfter_append] at h
      cases h
  | some s =>
    rw [hStatus] at h
    rw [← definite_statusAfter h.symm, ← change_eq_one_iff]
    obtain ⟨own, hFind, rfl⟩ := Option.map_eq_some_iff.mp hStatus
    rw [ownCompare, hFind]
    dsimp only
    split
    · rename_i hSame
      exact iff_of_false (show ¬ 0 = 1 by decide) fun hNot => hNot.1 hSame
    · rename_i hDiffers
      exact ⟨fun hOne => ⟨hDiffers, hOne⟩, And.right⟩

end Entries

/-! ## `compare_status_file` up to the lock -/

/-- What is done to the file. -/
inductive Edit where
  | keep
  /-- `echo "..." >> $STATUS_FILE` -/
  | append (line : Text)
  /-- `sed -i "s/pattern/text/g" $STATUS_FILE` -/
  | replace (pattern text : Text)
  deriving DecidableEq

def Edit.apply (file : List Text) : Edit → List Text
  | .keep => file
  | .append line => file ++ [line]
  | .replace pattern text => substitute file pattern text

section Read

variable (g : Globbing) (p : Patterns) (file : List Text) (name : Text) (state : Nat)

/-- `change_status_file`: what it will return, and what it will do to the file. -/
def readChange (lastNodeStatus : Text) : Nat × Edit :=
  let last := ((g.split lastNodeStatus).head?).getD []
  let is := fun s : NodeStatus => p.test last s.value
  let (nodeStatus, retval) :=
    if state = 0 then (NodeStatus.started.value, if is .stopping || is .unknown then 2 else 1)
    else if state = 1 then (NodeStatus.stopped.value, if is .starting || is .unknown then 2 else 1)
    else (if is .started then NodeStatus.stopping.value
      else if is .stopped then NodeStatus.starting.value else last, 2)
  (retval, .replace (name ++ ' ' :: lastNodeStatus) (name ++ ' ' :: nodeStatus))

/-- `compare_status_file`: what it will return, and what it will do to the file. -/
def readStatus : Nat × Edit :=
  let found := file.filter fun line => Matcher.occurs (Matcher.lit (name ++ [' '])) line
  let lastNodeStatus := substitution (found.map (cut ' ' 2))
  if lastNodeStatus = [] then
    let nodeStatus := if state = 0 then NodeStatus.started
      else if state = 1 then .stopped else .unknown
    (2, .append (name ++ ' ' :: nodeStatus.value))
  else if state = 0 ∧ p.test lastNodeStatus NodeStatus.started.value then (0, .keep)
  else if state = 1 ∧ p.test lastNodeStatus NodeStatus.stopped.value then (0, .keep)
  else readChange g p name state lastNodeStatus

/-- The function, if no one else writes while it runs. -/
theorem compareStatusFile_eq_apply : compareStatusFile g p file name state =
    ((readStatus g p file name state).1, (readStatus g p file name state).2.apply file) := by
  unfold compareStatusFile readStatus
  dsimp only
  split
  · rfl
  split
  · rfl
  split
  · rfl
  · rfl

end Read

section Decision

variable {g : Globbing} {p : Patterns} {names : List NodeName} {entries : List Entry}
  {name : NodeName} {state : Nat}

/-- The decision by the status of the node. -/
def editOf (name : NodeName) (state : Nat) : Option NodeStatus → Nat × Edit
  | none => (2, .append (Entry.line ⟨name, nextStatus none state⟩))
  | some s =>
    if state = 0 ∧ s = .started ∨ state = 1 ∧ s = .stopped then (0, .keep)
    else (s.change state, .replace (Entry.line ⟨name, s⟩) (Entry.line ⟨name, s.next state⟩))

theorem readChange_eq {e : Entry} : readChange g p name.text state (lastStatus [e]) =
    (e.status.change state, .replace (Entry.line ⟨name, e.status⟩)
      (Entry.line ⟨name, e.status.next state⟩)) := by
  unfold readChange NodeStatus.change NodeStatus.next
  dsimp only
  rw [head?_split, Option.getD_some, lastStatus_singleton]
  simp only [Bool.or_eq_true, test_status]
  split
  · rfl
  split
  · rfl
  · cases e.status <;> rfl

/-- A node has one entry at most. -/
theorem filter_name (hNodup : (entries.map Entry.name).Nodup) :
    (entries.filter fun e => e.name = name) = (entries.find? fun e => e.name = name).toList := by
  induction entries with
  | nil => rfl
  | cons e entries ih =>
    rw [List.map_cons, List.nodup_cons] at hNodup
    obtain ⟨hNew, hNodup⟩ := hNodup
    by_cases hName : e.name = name
    · have hNone : (entries.filter fun e => e.name = name) = [] := by
        refine List.filter_eq_nil_iff.mpr fun other hOther hSame => hNew ?_
        rw [hName, ← of_decide_eq_true hSame]
        exact List.mem_map_of_mem hOther
      simp [hName, hNone]
    · simpa [hName] using ih hNodup

/-- Among names that are apart only the entry of the node is found. -/
theorem matching_eq (hApart : Apart names) (h : Proper names entries) (hName : name ∈ names) :
    matching name entries = (entries.find? fun e => e.name = name).toList := by
  have hOwn : matching name entries = entries.filter fun e => e.name = name := by
    refine List.filter_congr fun e he => Bool.eq_iff_iff.mpr ?_
    rw [List.isSuffixOf_iff_suffix, decide_eq_true_iff]
    refine ⟨fun hSuffix => (hApart name hName e.name (h.known e he) hSuffix).symm, ?_⟩
    rintro rfl
    exact List.suffix_rfl
  rw [hOwn, filter_name h.nodup]

/-- Among names that are apart the decision is made by the entry of the node. -/
theorem readStatus_eq (hApart : Apart names) (h : Proper names entries) (hName : name ∈ names) :
    readStatus g p (entries.map Entry.line) name.text state =
      editOf name state (statusOf entries name) := by
  have hMatch := matching_eq hApart h hName
  unfold readStatus statusOf
  dsimp only
  rw [cut_found]
  show (if lastStatus (matching name entries) = [] then _
    else if state = 0 ∧ p.test (lastStatus (matching name entries)) NodeStatus.started.value then _
    else if state = 1 ∧ p.test (lastStatus (matching name entries)) NodeStatus.stopped.value then _
    else readChange g p name.text state (lastStatus (matching name entries))) = _
  rw [hMatch]
  cases hFind : entries.find? fun e => e.name = name with
  | none => rfl
  | some own =>
    rw [Option.toList_some, if_neg (lastStatus_ne_nil _ _), readChange_eq, lastStatus_singleton]
    simp only [test_status]
    show _ = if state = 0 ∧ own.status = .started ∨ state = 1 ∧ own.status = .stopped then
      (0, Edit.keep) else _
    by_cases hStarted : state = 0 ∧ own.status = .started
    · rw [if_pos hStarted, if_pos (Or.inl hStarted)]
    · rw [if_neg hStarted]
      by_cases hStopped : state = 1 ∧ own.status = .stopped
      · rw [if_pos hStopped, if_pos (Or.inr hStopped)]
      · rw [if_neg hStopped, if_neg (not_or.mpr ⟨hStarted, hStopped⟩)]

/-- What is written by the decision is what should be written for the node. -/
theorem apply_editOf (hApart : Apart names) (h : Proper names entries) (hName : name ∈ names)
    (g : Globbing) (p : Patterns) (m : CrmMon) :
    (editOf name state (statusOf entries name)).2.apply (entries.map Entry.line) =
        (ownCompare name state entries).2.map Entry.line ∧
      (editOf name state (statusOf entries name)).1 = (ownCompare name state entries).1 := by
  have hCompare := compareStatusFile_eq (g := g) (p := p) hApart h hName m state
  rw [compareStatusFile_eq_apply, readStatus_eq hApart h hName, Prod.mk.injEq] at hCompare
  exact ⟨hCompare.2, hCompare.1⟩

/-- The file is left alone only for a status that would be written again. -/
theorem editOf_keep {status : Option NodeStatus} (h : (editOf name state status).2 = .keep) :
    status = some (nextStatus status state) := by
  cases status with
  | none => cases h
  | some s =>
    by_cases hSame : state = 0 ∧ s = .started ∨ state = 1 ∧ s = .stopped
    · rcases hSame with ⟨rfl, rfl⟩ | ⟨rfl, rfl⟩
      · rfl
      · rfl
    · rw [editOf, if_neg hSame] at h
      cases h

/-- No line feed stands in the pattern. -/
theorem editOf_replace {status : Option NodeStatus} {pattern text : Text}
    (h : (editOf name state status).2 = .replace pattern text) : '\n' ∉ pattern := by
  cases status with
  | none => cases h
  | some s =>
    by_cases hSame : state = 0 ∧ s = .started ∨ state = 1 ∧ s = .stopped
    · rw [editOf, if_pos hSame] at h
      cases h
    · rw [editOf, if_neg hSame] at h
      cases h
      rw [Entry.line, List.mem_append, List.mem_cons, not_or, not_or]
      exact ⟨name.not_mem (by decide), by decide, s.not_mem (by decide)⟩

end Decision

end MasakariHA.Monitors.HostmonitorSh
