import MasakariHA.Lib.Ensures
import MasakariHA.Lib.PyString
import MasakariHA.Exception
import MasakariHA.Monitors.ParseCibXml

/-!
# The host monitor

`HandleHost._check_if_status_changed` on the `node_state` tags of one poll after the other,
with the statuses that `HostHoldStatus` keeps between the polls. The IPMI tool, the clock
and the notifier are outside (`Outside`); the events that the notifier is handed are
recorded.

* `isPoweroff`, `makeEvent`, `checkTag`, `monitor`: the monitor;
* `announced`: what a host whose statuses are seen one by one gives rise to;
* `ensures_monitor_host`: the monitor hands over for each host what `announced` says;
* `stopped_mem_announced`, `reports_iff_falls`: when a `STOPPED` is among it.
-/

namespace MasakariHA.Monitors

open Lib

namespace EventConstants

def typeComputeHost : String := "COMPUTE_HOST"
def eventStarted : String := "STARTED"
def eventStopped : String := "STOPPED"
def hostStatusNormal : String := "NORMAL"
def hostStatusUnknown : String := "UNKNOWN"

end EventConstants

/-- The dictionary of `_make_event`. -/
structure Event where
  type : String
  hostname : Option String
  generatedTime : Int
  event : String
  clusterStatus : String
  hostStatus : String

/-- The options of `CONF.host` that the functions below read. -/
structure HostConf where
  disableIpmiCheck : Bool
  ipmiTimeout : Int
  ipmiRetryMax : Int
  apiRetryMax : Int
  apiRetryInterval : Int

/-- How `utils.execute` ends: in an exception, or with the two outputs. -/
inductive Execution where
  | raised
  | returned (out err : String)

/-- What the monitor uses and does not hold itself, on a state of its own. -/
structure Outside (ω : Type) where
  execute : List String → ω → Execution × ω
  utcnow : ω → Int × ω
  sendNotification : Int → Int → Event → ω → Option Fault × ω

/-- The statuses that `status_holder` has, the events handed to the notifier, and the state
outside. -/
structure HandleHost (ω : Type) where
  hostStatus : Option String → Option (Option String)
  handed : List Event
  outside : ω

/-- A program of the monitor. -/
abbrev HostM (ω : Type) := EStateM Exc (HandleHost ω)

namespace HandleHost

variable {ω : Type}

def init (w : ω) : HandleHost ω := ⟨fun _ => none, [], w⟩

def setHostStatus (s : HandleHost ω) (nodeStateTag : Element) : HandleHost ω :=
  { s with
    hostStatus := Function.update s.hostStatus (nodeStateTag.get "uname")
      (some (nodeStateTag.get "crmd")) }

/-- `HostHoldStatus.get_host_status`: `None` for a host that is not in the dictionary, and
for one that is in it with `None`. -/
def getHostStatus (s : HandleHost ω) (hostname : Option String) : Option String :=
  (s.hostStatus hostname).join

end HandleHost

section Monitor

variable {ω : Type} (conf : HostConf) (outside : Outside ω)

def execute (command : List String) : HostM ω Execution := do
  let s ← get
  let (r, w) := outside.execute command s.outside
  set { s with outside := w }
  pure r

def utcnow : HostM ω Int := do
  let s ← get
  let (t, w) := outside.utcnow s.outside
  set { s with outside := w }
  pure t

/-- The event is handed to the notifier. -/
def sendNotification (event : Event) : HostM ω Unit := do
  let s ← get
  let (r, w) := outside.sendNotification conf.apiRetryMax conf.apiRetryInterval event s.outside
  set { s with handed := s.handed ++ [event], outside := w }
  match r with
  | none => pure ()
  | some e => throw e.val

/-- `ipmi_values[key]` formatted with `%s`. -/
def ipmiParam (value : Option (Option String)) : HostM ω String :=
  match value with
  | none => throw (.other "KeyError")
  | some v => pure (v.getD "None")

/-- The loop of `_is_poweroff`, with the retries that are left. -/
def powerStatus (command : List String) : Nat → HostM ω Bool
  | 0 => do
    match ← execute outside command with
    | .returned out err => pure (err = "" ∧ PyString.contains out "Power is off")
    | .raised => pure false
  | retries + 1 => do
    match ← execute outside command with
    | .returned out err =>
      if err = "" ∧ PyString.contains out "Power is off" then pure true
      else powerStatus command retries
    | .raised => powerStatus command retries

def isPoweroff (cib : Element) (hostname : Option String) : HostM ω Bool :=
  match getStonithIpmiParams cib hostname with
  | none => pure false
  | some ipmiValues => do
    let userid ← ipmiParam ipmiValues.userid
    let passwd ← ipmiParam ipmiValues.passwd
    let interface ← ipmiParam ipmiValues.interface
    let ipaddr ← ipmiParam ipmiValues.ipaddr
    let cmdStr := s!"timeout {conf.ipmiTimeout} ipmitool -U {userid} -P {passwd} " ++
      s!"-I {interface} -H {ipaddr} power status"
    powerStatus outside (cmdStr.splitOn " ") conf.ipmiRetryMax.toNat

/-- The `host_status` of the event of a stopped host. -/
def stoppedHostStatus (cib : Element) (hostname : Option String) : HostM ω String :=
  if conf.disableIpmiCheck then pure EventConstants.hostStatusNormal
  else do
    if ← isPoweroff conf outside cib hostname then pure EventConstants.hostStatusNormal
    else pure EventConstants.hostStatusUnknown

/-- The `event_type` that `_make_event` sets. -/
def eventOf (currentStatus : String) : String :=
  if currentStatus = "online" then EventConstants.eventStarted else EventConstants.eventStopped

def makeEvent (cib : Element) (hostname : Option String) (currentStatus : String) :
    HostM ω Event := do
  let hostStatus ← (if currentStatus = "online" then pure EventConstants.hostStatusNormal
    else stoppedHostStatus conf outside cib hostname : HostM ω String)
  let currentTime ← utcnow outside
  pure ⟨EventConstants.typeComputeHost, hostname, currentTime, eventOf currentStatus,
    PyString.upper currentStatus, hostStatus⟩

variable (myHostname : String)

/-- The event of a known host whose status has changed. -/
def notifyIfChanged (cib : Element) (hostname : Option String) (oldStatus : String)
    (currentStatus : Option String) : HostM ω Unit :=
  match currentStatus with
  | none => pure ()
  | some status =>
    if status ≠ oldStatus ∧ (status = "online" ∨ status = "offline") then do
      let event ← makeEvent conf outside cib hostname status
      sendNotification conf outside event
    else pure ()

/-- One round of the loop of `_check_if_status_changed`. -/
def checkTag (cib nodeStateTag : Element) : HostM ω Unit := do
  if nodeStateTag.get "uname" = some myHostname then pure ()
  else do
    let s ← get
    match s.getHostStatus (nodeStateTag.get "uname") with
    | none => modify (·.setHostStatus nodeStateTag)
    | some oldStatus => do
      notifyIfChanged conf outside cib (nodeStateTag.get "uname") oldStatus
        (nodeStateTag.get "crmd")
      modify (·.setHostStatus nodeStateTag)

/-- What one poll gets from `cibadmin`: the document that the parser is set to, and its
`node_state` tags. -/
structure Poll where
  cib : Element
  nodeStateTagList : List Element

def checkIfStatusChanged (p : Poll) : HostM ω Unit :=
  p.nodeStateTagList.forM (checkTag conf outside myHostname p.cib)

/-- The monitor over a run of polls. -/
def monitor (polls : List Poll) : HostM ω Unit :=
  polls.forM (checkIfStatusChanged conf outside myHostname)

end Monitor

/-! ## What the parts leave as it is -/

/-- Nothing is handed over and no status is set. -/
def Same {ω : Type} (s s' : HandleHost ω) : Prop :=
  s'.handed = s.handed ∧ s'.hostStatus = s.hostStatus

/-- The IPMI check of the host, where it is made, finds all parameters of the agent. -/
def IpmiComplete (conf : HostConf) (cib : Element) (hostname : Option String) : Prop :=
  conf.disableIpmiCheck = true ∨ ∀ v, getStonithIpmiParams cib hostname = some v → v.Complete

def NotifierReturns {ω : Type} (outside : Outside ω) : Prop :=
  ∀ retryMax interval event w, (outside.sendNotification retryMax interval event w).1 = none

section Parts

variable {ω : Type} {conf : HostConf} {outside : Outside ω} {s t u : HandleHost ω}
  {cib : Element} {hostname : Option String}

theorem same_trans (h : Same s t) (h' : Same t u) : Same s u :=
  ⟨h'.1.trans h.1, h'.2.trans h.2⟩

theorem ensures_execute (command : List String) :
    Ensures (execute outside command) s (fun _ => Same s) (fun _ _ => False) := by
  unfold execute
  rw [ensures_bind, ensures_get]
  exact ⟨rfl, rfl⟩

theorem ensures_utcnow : Ensures (utcnow outside) s (fun _ => Same s) (fun _ _ => False) := by
  unfold utcnow
  rw [ensures_bind, ensures_get]
  exact ⟨rfl, rfl⟩

/-- The retries run out: the loop ends, and it does not raise. -/
theorem ensures_powerStatus (command : List String) (retries : Nat) :
    Ensures (powerStatus outside command retries) s (fun _ => Same s) (fun _ _ => False) := by
  induction retries generalizing s with
  | zero =>
    unfold powerStatus
    rw [ensures_bind]
    refine ensures_mono (ensures_execute command) (fun r t hSame => ?_) (fun _ _ hNot => hNot)
    cases r with
    | raised => exact hSame
    | returned out err => exact hSame
  | succ retries ih =>
    unfold powerStatus
    rw [ensures_bind]
    refine ensures_mono (ensures_execute command) (fun r t hSame => ?_) (fun _ _ hNot => hNot)
    have hRetry : Ensures (powerStatus outside command retries) t (fun _ => Same s)
        (fun _ _ => False) :=
      ensures_mono ih (fun _ _ hAfter => same_trans hSame hAfter) (fun _ _ hNot => hNot)
    cases r with
    | raised => exact hRetry
    | returned out err =>
      dsimp only
      split
      · exact hSame
      · exact hRetry

theorem ensures_ipmiParam {value : Option (Option String)} :
    Ensures (ipmiParam value) s (fun _ => Same s) (fun _ t => Same s t ∧ value = none) := by
  cases value with
  | none => exact ⟨⟨rfl, rfl⟩, rfl⟩
  | some v => exact ⟨rfl, rfl⟩

/-- A missing parameter raises `KeyError`. -/
theorem ensures_isPoweroff :
    Ensures (isPoweroff conf outside cib hostname) s (fun _ => Same s)
      (fun _ t => Same s t ∧ ∃ v, getStonithIpmiParams cib hostname = some v ∧ ¬ v.Complete) := by
  unfold isPoweroff
  split
  · exact ⟨rfl, rfl⟩
  · rename_i v hParams
    have hRaise : ∀ {value : Option (Option String)} {t : HandleHost ω},
        (v.Complete → value ≠ none) → Same s t → Ensures (ipmiParam value) t (fun _ => Same s)
          (fun _ u => Same s u ∧
            ∃ v, getStonithIpmiParams cib hostname = some v ∧ ¬ v.Complete) := by
      intro value t hKey hSame
      refine ensures_mono ensures_ipmiParam (fun _ _ hAfter => same_trans hSame hAfter)
        (fun _ _ hAfter => ⟨same_trans hSame hAfter.1, v, hParams, fun hComplete => ?_⟩)
      exact hKey hComplete hAfter.2
    simp only [ensures_bind]
    refine ensures_mono (hRaise (fun h => h.1) ⟨rfl, rfl⟩) (fun _ _ h₁ => ?_) (fun _ _ h => h)
    refine ensures_mono (hRaise (fun h => h.2.1) h₁) (fun _ _ h₂ => ?_) (fun _ _ h => h)
    refine ensures_mono (hRaise (fun h => h.2.2.1) h₂) (fun _ _ h₃ => ?_) (fun _ _ h => h)
    refine ensures_mono (hRaise (fun h => h.2.2.2) h₃) (fun _ _ h₄ => ?_) (fun _ _ h => h)
    exact ensures_mono (ensures_powerStatus _ _) (fun _ _ h => same_trans h₄ h)
      (fun _ _ hNot => hNot.elim)

theorem ensures_stoppedHostStatus :
    Ensures (stoppedHostStatus conf outside cib hostname) s (fun _ => Same s)
      (fun _ t => Same s t ∧ ¬ IpmiComplete conf cib hostname) := by
  unfold stoppedHostStatus
  split
  · exact ⟨rfl, rfl⟩
  · rename_i hCheck
    rw [ensures_bind]
    refine ensures_mono ensures_isPoweroff (fun isPoweroff t hSame => ?_) (fun _ t hRaise => ?_)
    · cases isPoweroff <;> exact hSame
    · obtain ⟨hSame, v, hParams, hNot⟩ := hRaise
      refine ⟨hSame, fun hComplete => ?_⟩
      rcases hComplete with hDisabled | hAll
      · exact hCheck hDisabled
      · exact hNot (hAll v hParams)

theorem ensures_makeEvent (status : String) :
    Ensures (makeEvent conf outside cib hostname status) s
      (fun e t => Same s t ∧ e.hostname = hostname ∧ e.event = eventOf status)
      (fun _ t => Same s t ∧ ¬ IpmiComplete conf cib hostname) := by
  unfold makeEvent
  rw [ensures_bind]
  have hHostStatus : Ensures
      (if status = "online" then pure EventConstants.hostStatusNormal
        else stoppedHostStatus conf outside cib hostname) s (fun _ => Same s)
      (fun _ t => Same s t ∧ ¬ IpmiComplete conf cib hostname) := by
    split
    · exact ⟨rfl, rfl⟩
    · exact ensures_stoppedHostStatus
  refine ensures_mono hHostStatus (fun _ t hSame => ?_) (fun _ _ hRaise => hRaise)
  rw [ensures_bind]
  exact ensures_mono ensures_utcnow (fun _ u hAfter => ⟨same_trans hSame hAfter, rfl, rfl⟩)
    (fun _ _ hNot => hNot.elim)

/-- Also when the notifier raises it has been handed the event. -/
theorem ensures_sendNotification (event : Event) :
    Ensures (sendNotification conf outside event) s
      (fun _ t => t.handed = s.handed ++ [event] ∧ t.hostStatus = s.hostStatus)
      (fun _ t => t.handed = s.handed ++ [event] ∧ ¬ NotifierReturns outside) := by
  unfold sendNotification
  simp only [ensures_bind, ensures_get, ensures_set]
  split
  · exact ⟨rfl, rfl⟩
  · rename_i e hRaise
    refine ⟨rfl, fun hReturns => ?_⟩
    rw [hReturns] at hRaise
    cases hRaise

end Parts

/-! ## What a host gives rise to -/

/-- The events of the status `new` of a host that had the status `old`. -/
def announcement (old new : Option String) : List String :=
  match old, new with
  | some o, some n => if n ≠ o ∧ (n = "online" ∨ n = "offline") then [eventOf n] else []
  | _, _ => []

/-- The events of a host whose statuses are seen one by one. -/
def announced : Option String → List (Option String) → List String
  | _, [] => []
  | old, new :: rest => announcement old new ++ announced new rest

/-- An `offline` follows directly on a status that is there and is not `offline`. -/
def Falls (statuses : List (Option String)) : Prop :=
  ∃ o, o ≠ "offline" ∧ [some o, some "offline"] <:+: statuses

theorem stopped_mem_announcement {old new : Option String} :
    EventConstants.eventStopped ∈ announcement old new ↔
      new = some "offline" ∧ ∃ o, old = some o ∧ o ≠ "offline" := by
  cases old with
  | none => simp [announcement]
  | some o =>
    cases new with
    | none => simp [announcement]
    | some n =>
      by_cases hOnline : n = "online"
      · subst hOnline
        simp [announcement, eventOf, EventConstants.eventStopped, EventConstants.eventStarted]
      · by_cases hOffline : n = "offline"
        · subst hOffline
          simp [announcement, eventOf, eq_comm]
        · simp [announcement, hOnline, hOffline]

theorem falls_cons {old new : Option String} {rest : List (Option String)} :
    Falls (old :: new :: rest) ↔
      (new = some "offline" ∧ ∃ o, old = some o ∧ o ≠ "offline") ∨ Falls (new :: rest) := by
  constructor
  · rintro ⟨o, hNe, hInfix⟩
    rcases List.infix_cons_iff.mp hInfix with hPrefix | hInfix
    · obtain ⟨hOld, hPrefix⟩ := List.cons_prefix_cons.mp hPrefix
      obtain ⟨hNew, -⟩ := List.cons_prefix_cons.mp hPrefix
      exact Or.inl ⟨hNew.symm, o, hOld.symm, hNe⟩
    · exact Or.inr ⟨o, hNe, hInfix⟩
  · rintro (⟨rfl, o, rfl, hNe⟩ | ⟨o, hNe, hInfix⟩)
    · exact ⟨o, hNe, ⟨[], rest, rfl⟩⟩
    · exact ⟨o, hNe, List.infix_cons hInfix⟩

/-- `STOPPED` is among the events exactly when the host falls from a status that is there. -/
theorem stopped_mem_announced {old : Option String} {statuses : List (Option String)} :
    EventConstants.eventStopped ∈ announced old statuses ↔ Falls (old :: statuses) := by
  induction statuses generalizing old with
  | nil =>
    refine iff_of_false List.not_mem_nil ?_
    rintro ⟨o, -, hInfix⟩
    have hLength := hInfix.length_le
    simp at hLength
  | cons new rest ih =>
    rw [announced, List.mem_append, stopped_mem_announcement, ih, falls_cons]

/-- A host that is never without a status falls somewhere on its way to `offline`. -/
theorem falls_of_present {o : String} {statuses : List (Option String)} (hOld : o ≠ "offline")
    (hPresent : none ∉ statuses) (hOffline : some "offline" ∈ statuses) :
    Falls (some o :: statuses) := by
  induction statuses generalizing o with
  | nil => cases hOffline
  | cons new rest ih =>
    rw [falls_cons]
    cases new with
    | none => exact absurd List.mem_cons_self hPresent
    | some n =>
      by_cases hNew : n = "offline"
      · exact Or.inl ⟨congrArg some hNew, o, rfl, hOld⟩
      · refine Or.inr (ih hNew (fun hMem => hPresent (List.mem_cons_of_mem _ hMem)) ?_)
        rcases List.mem_cons.mp hOffline with hSame | hMem
        · exact absurd (Option.some.inj hSame).symm hNew
        · exact hMem

theorem announced_append (old : Option String) (xs ys : List (Option String)) :
    announced old (xs ++ ys) = announced old xs ++ announced (xs.getLastD old) ys := by
  induction xs generalizing old with
  | nil => rfl
  | cons x xs ih =>
    rw [List.cons_append, announced, announced, ih, List.append_assoc, List.getLastD_cons]

/-! ## What the monitor hands over -/

/-- From `s` to `t` the notifier is handed events of these hosts. -/
def HandsOver {ω : Type} (s t : HandleHost ω) (events : List (Option String × String)) : Prop :=
  ∃ new, t.handed = s.handed ++ new ∧ new.map (fun e => (e.hostname, e.event)) = events

/-- The events of a `node_state` tag. -/
def tagEvents {ω : Type} (myHostname : String) (s : HandleHost ω) (tag : Element) :
    List (Option String × String) :=
  if tag.get "uname" = some myHostname then []
  else (announcement (s.getHostStatus (tag.get "uname")) (tag.get "crmd")).map
    (tag.get "uname", ·)

section Tags

variable {ω : Type} {conf : HostConf} {outside : Outside ω} {myHostname : String}
  {s t u : HandleHost ω} {cib tag : Element} {hostname : Option String}

theorem handsOver_of_same (h : Same s t) : HandsOver s t [] :=
  ⟨[], by rw [h.1, List.append_nil], rfl⟩

theorem handsOver_append {xs ys : List (Option String × String)} (h : HandsOver s t xs)
    (h' : HandsOver t u ys) : HandsOver s u (xs ++ ys) := by
  obtain ⟨new, hNew, rfl⟩ := h
  obtain ⟨new', hNew', rfl⟩ := h'
  exact ⟨new ++ new', by rw [hNew', hNew, List.append_assoc], List.map_append⟩

theorem ensures_notifyIfChanged (old : String) (new : Option String) :
    Ensures (notifyIfChanged conf outside cib hostname old new) s
      (fun _ t => HandsOver s t ((announcement (some old) new).map (hostname, ·)) ∧
        t.hostStatus = s.hostStatus)
      (fun _ t => (HandsOver s t [] ∨
          HandsOver s t ((announcement (some old) new).map (hostname, ·))) ∧
        ¬ (IpmiComplete conf cib hostname ∧ NotifierReturns outside)) := by
  cases new with
  | none => exact ⟨handsOver_of_same ⟨rfl, rfl⟩, rfl⟩
  | some status =>
    simp only [notifyIfChanged, announcement]
    split
    · rw [ensures_bind]
      refine ensures_mono (ensures_makeEvent status) (fun e t hMade => ?_) (fun _ t hRaise => ?_)
      · obtain ⟨hSame, hName, hEvent⟩ := hMade
        have hHanded : ∀ u : HandleHost ω, u.handed = t.handed ++ [e] →
            HandsOver s u ([eventOf status].map (hostname, ·)) := by
          intro u hu
          refine ⟨[e], by rw [hu, hSame.1], ?_⟩
          simp only [List.map_cons, List.map_nil, hName, hEvent]
        refine ensures_mono (ensures_sendNotification e) (fun _ u hSent => ?_)
          (fun _ u hRaise => ?_)
        · exact ⟨hHanded u hSent.1, hSent.2.trans hSame.2⟩
        · exact ⟨Or.inr (hHanded u hRaise.1), fun h => hRaise.2 h.2⟩
      · exact ⟨Or.inl (handsOver_of_same hRaise.1), fun h => hRaise.2 h.1⟩
    · exact ⟨handsOver_of_same ⟨rfl, rfl⟩, rfl⟩

theorem getHostStatus_setHostStatus (s : HandleHost ω) (tag : Element) (host : Option String) :
    (s.setHostStatus tag).getHostStatus host =
      if host = tag.get "uname" then tag.get "crmd" else s.getHostStatus host := by
  simp only [HandleHost.getHostStatus, HandleHost.setHostStatus, Function.update_apply]
  split <;> rfl

/-- Whether the check of a tag returns or raises, it hands over the events of the tag or
nothing. -/
theorem ensures_checkTag :
    Ensures (checkTag conf outside myHostname cib tag) s
      (fun _ t => HandsOver s t (tagEvents myHostname s tag) ∧
        ∀ host, host ≠ some myHostname → t.getHostStatus host =
          if host = tag.get "uname" then tag.get "crmd" else s.getHostStatus host)
      (fun _ t => (HandsOver s t [] ∨ HandsOver s t (tagEvents myHostname s tag)) ∧
        ¬ (IpmiComplete conf cib (tag.get "uname") ∧ NotifierReturns outside)) := by
  unfold checkTag tagEvents
  split
  · rename_i hOwn
    refine ⟨handsOver_of_same ⟨rfl, rfl⟩, fun host hHost => ?_⟩
    rw [if_neg (fun hSame => hHost (hSame.trans hOwn))]
  · rw [ensures_bind, ensures_get]
    cases hOld : s.getHostStatus (tag.get "uname") with
    | none =>
      -- A new member of the cluster.
      exact ⟨⟨[], (List.append_nil _).symm, rfl⟩,
        fun host _ => getHostStatus_setHostStatus s tag host⟩
    | some old =>
      dsimp only
      rw [ensures_bind]
      refine ensures_mono (ensures_notifyIfChanged old (tag.get "crmd")) (fun _ t hAfter => ?_)
        (fun _ _ hRaise => hRaise)
      refine ⟨hAfter.1, fun host _ => ?_⟩
      refine (getHostStatus_setHostStatus t tag host).trans ?_
      rw [HandleHost.getHostStatus, HandleHost.getHostStatus, hAfter.2]

end Tags

/-! ## One host over a run -/

/-- The statuses that tags show of a host. -/
def statusesOf (host : Option String) (tags : List Element) : List (Option String) :=
  (tags.filter fun tag => decide (tag.get "uname" = host)).map (·.get "crmd")

/-- The statuses that polls show of a host. -/
def seen (host : Option String) (polls : List Poll) : List (Option String) :=
  polls.flatMap fun p => statusesOf host p.nodeStateTagList

/-- The event types for a host. -/
def eventsOf (host : Option String) (events : List (Option String × String)) : List String :=
  (events.filter fun e => decide (e.1 = host)).map (·.2)

/-- The monitor has followed a host through the statuses. -/
structure Follows {ω : Type} (host : Option String) (s t : HandleHost ω)
    (statuses : List (Option String)) : Prop where
  handed : ∃ events, HandsOver s t events ∧
    eventsOf host events = announced (s.getHostStatus host) statuses
  status : t.getHostStatus host = statuses.getLastD (s.getHostStatus host)

/-- No IPMI check that a poll can ask for raises. -/
def Poll.Complete (conf : HostConf) (p : Poll) : Prop :=
  ∀ tag ∈ p.nodeStateTagList, IpmiComplete conf p.cib (tag.get "uname")

/-- The monitor goes through the polls `before` and then `window`, and in `window` it hands
over a `STOPPED` of the host. -/
def Reports {ω : Type} (conf : HostConf) (outside : Outside ω) (myHostname : String) (w : ω)
    (host : Option String) (before window : List Poll) : Prop :=
  ∃ s t new, (monitor conf outside myHostname before).run (HandleHost.init w) = .ok () s ∧
    (monitor conf outside myHostname window).run s = .ok () t ∧ t.handed = s.handed ++ new ∧
    ∃ e ∈ new, e.hostname = host ∧ e.event = EventConstants.eventStopped

section Runs

variable {ω : Type} {conf : HostConf} {outside : Outside ω} {myHostname : String}
  {s t u : HandleHost ω} {host : Option String}

theorem follows_refl (host : Option String) (s : HandleHost ω) : Follows host s s [] :=
  ⟨⟨[], handsOver_of_same ⟨rfl, rfl⟩, rfl⟩, rfl⟩

theorem follows_append {xs ys : List (Option String)} (h : Follows host s t xs)
    (h' : Follows host t u ys) : Follows host s u (xs ++ ys) := by
  obtain ⟨events, hHands, hEvents⟩ := h.handed
  obtain ⟨events', hHands', hEvents'⟩ := h'.handed
  refine ⟨⟨events ++ events', handsOver_append hHands hHands', ?_⟩, ?_⟩
  · rw [announced_append, ← hEvents, ← h.status, ← hEvents']
    simp only [eventsOf, List.filter_append, List.map_append]
  · rw [h'.status, h.status]
    cases ys with
    | nil => rw [List.append_nil]; rfl
    | cons y ys => simp only [List.getLastD_eq_getLast?, List.getLast?_append, List.getLast?_cons,
        Option.some_or, Option.getD_some]

theorem eventsOf_map (host name : Option String) (types : List String) :
    eventsOf host (types.map (name, ·)) = if name = host then types else [] := by
  unfold eventsOf
  split
  · rename_i hSame
    induction types with
    | nil => rfl
    | cons e types ih => simp [hSame, List.filter_map, Function.comp_def]
  · rename_i hOther
    simp [hOther, List.filter_map, Function.comp_def]

theorem ensures_checkTag_host (cib tag : Element) (hHost : host ≠ some myHostname) :
    Ensures (checkTag conf outside myHostname cib tag) s
      (fun _ t => Follows host s t (statusesOf host [tag]))
      (fun _ _ => ¬ (IpmiComplete conf cib (tag.get "uname") ∧ NotifierReturns outside)) := by
  refine ensures_mono ensures_checkTag (fun _ t hAfter => ?_) (fun _ _ hRaise => hRaise.2)
  obtain ⟨hHands, hStatus⟩ := hAfter
  by_cases hSame : tag.get "uname" = host
  · have hStatuses : statusesOf host [tag] = [tag.get "crmd"] := by simp [statusesOf, hSame]
    have hOwn : tag.get "uname" ≠ some myHostname := fun hOwn => hHost (hSame.symm.trans hOwn)
    rw [hStatuses]
    refine ⟨⟨_, hHands, ?_⟩, ?_⟩
    · rw [tagEvents, if_neg hOwn, eventsOf_map, if_pos hSame, hSame, announced, announced,
        List.append_nil]
    · rw [hStatus host hHost, if_pos hSame.symm]
      rfl
  · have hStatuses : statusesOf host [tag] = [] := by simp [statusesOf, hSame]
    rw [hStatuses]
    refine ⟨⟨_, hHands, ?_⟩, ?_⟩
    · unfold tagEvents
      split
      · rfl
      · rw [eventsOf_map, if_neg hSame]
        rfl
    · rw [hStatus host hHost, if_neg (fun h => hSame h.symm)]
      rfl

theorem ensures_checkTags_host (cib : Element) (tags : List Element)
    (hHost : host ≠ some myHostname) :
    Ensures (tags.forM (checkTag conf outside myHostname cib)) s
      (fun _ t => Follows host s t (statusesOf host tags))
      (fun _ _ => ¬ ((∀ tag ∈ tags, IpmiComplete conf cib (tag.get "uname")) ∧
        NotifierReturns outside)) := by
  refine ensures_forM_prefix (fun passed t => Follows host s t (statusesOf host passed))
    (follows_refl host s) (fun tag hTag passed t hPassed => ?_)
  refine ensures_mono (ensures_checkTag_host cib tag hHost) (fun _ u hAfter => ?_)
    (fun _ _ hRaise h => hRaise ⟨h.1 tag hTag, h.2⟩)
  have hStatuses : statusesOf host (passed ++ [tag]) =
      statusesOf host passed ++ statusesOf host [tag] := by
    simp only [statusesOf, List.filter_append, List.map_append]
  rw [hStatuses]
  exact follows_append hPassed hAfter

/-- Over a run of polls each host gives rise to the events of its statuses. -/
theorem ensures_monitor_host (polls : List Poll) (hHost : host ≠ some myHostname) :
    Ensures (monitor conf outside myHostname polls) s
      (fun _ t => Follows host s t (seen host polls))
      (fun _ _ => ¬ ((∀ p ∈ polls, p.Complete conf) ∧ NotifierReturns outside)) := by
  refine ensures_forM_prefix (fun passed t => Follows host s t (seen host passed))
    (follows_refl host s) (fun p hPoll passed t hPassed => ?_)
  refine ensures_mono (ensures_checkTags_host p.cib p.nodeStateTagList hHost)
    (fun _ u hAfter => ?_) (fun _ _ hRaise h => hRaise ⟨h.1 p hPoll, h.2⟩)
  have hSeen : seen host (passed ++ [p]) =
      seen host passed ++ statusesOf host p.nodeStateTagList := by
    simp [seen]
  rw [hSeen]
  exact follows_append hPassed hAfter

theorem follows_of_run {polls : List Poll} (hHost : host ≠ some myHostname)
    (hRun : (monitor conf outside myHostname polls).run s = .ok () t) :
    Follows host s t (seen host polls) := by
  have hMonitor : Ensures (monitor conf outside myHostname polls) s
      (fun _ t => Follows host s t (seen host polls))
      (fun _ _ => ¬ ((∀ p ∈ polls, p.Complete conf) ∧ NotifierReturns outside)) :=
    ensures_monitor_host polls hHost
  unfold Ensures at hMonitor
  rw [hRun] at hMonitor
  exact hMonitor

/-- No check raises: the monitor goes through all polls. -/
theorem exists_run_of_complete {polls : List Poll} (hHost : host ≠ some myHostname)
    (hComplete : ∀ p ∈ polls, p.Complete conf) (hReturns : NotifierReturns outside) :
    ∃ t, (monitor conf outside myHostname polls).run s = .ok () t := by
  have hMonitor : Ensures (monitor conf outside myHostname polls) s
      (fun _ t => Follows host s t (seen host polls))
      (fun _ _ => ¬ ((∀ p ∈ polls, p.Complete conf) ∧ NotifierReturns outside)) :=
    ensures_monitor_host polls hHost
  unfold Ensures at hMonitor
  cases hRun : (monitor conf outside myHostname polls).run s with
  | ok a t => exact ⟨t, rfl⟩
  | error e t =>
    rw [hRun] at hMonitor
    exact absurd ⟨hComplete, hReturns⟩ hMonitor

/-- A `STOPPED` of the host is among what is handed over exactly when the host falls. -/
theorem stopped_iff_falls {statuses : List (Option String)} {new : List Event}
    (h : Follows host s t statuses) (hNew : t.handed = s.handed ++ new) :
    (∃ e ∈ new, e.hostname = host ∧ e.event = EventConstants.eventStopped) ↔
      Falls (s.getHostStatus host :: statuses) := by
  obtain ⟨events, ⟨new', hNew', hKeys⟩, hEvents⟩ := h.handed
  have hSame : new' = new := List.append_cancel_left (hNew'.symm.trans hNew)
  rw [← stopped_mem_announced, ← hEvents, ← hKeys, hSame]
  simp [eventsOf, and_assoc]

theorem reports_iff_falls (w : ω) (hHost : host ≠ some myHostname) {before window : List Poll}
    (hComplete : ∀ p ∈ before ++ window, p.Complete conf) (hReturns : NotifierReturns outside) :
    Reports conf outside myHostname w host before window ↔
      Falls ((seen host before).getLastD none :: seen host window) := by
  have hFalls : ∀ s t new,
      (monitor conf outside myHostname before).run (HandleHost.init w) = .ok () s →
      (monitor conf outside myHostname window).run s = .ok () t → t.handed = s.handed ++ new →
      ((∃ e ∈ new, e.hostname = host ∧ e.event = EventConstants.eventStopped) ↔
        Falls ((seen host before).getLastD none :: seen host window)) := by
    intro s t new hBefore hWindow hNew
    have hOld : s.getHostStatus host = (seen host before).getLastD none :=
      (follows_of_run hHost hBefore).status
    rw [← hOld]
    exact stopped_iff_falls (follows_of_run hHost hWindow) hNew
  constructor
  · rintro ⟨s, t, new, hBefore, hWindow, hNew, hStopped⟩
    exact (hFalls s t new hBefore hWindow hNew).mp hStopped
  · intro hFall
    obtain ⟨s, hBefore⟩ := exists_run_of_complete (s := HandleHost.init w) hHost
      (fun p hp => hComplete p (List.mem_append_left _ hp)) hReturns
    obtain ⟨t, hWindow⟩ := exists_run_of_complete (s := s) hHost
      (fun p hp => hComplete p (List.mem_append_right _ hp)) hReturns
    obtain ⟨events, ⟨new, hNew, -⟩, -⟩ := (follows_of_run hHost hWindow).handed
    exact ⟨s, t, new, hBefore, hWindow, hNew, (hFalls s t new hBefore hWindow hNew).mpr hFall⟩

/-- A host that is shown online last, and then never without a status, is reported by the
time that it is shown offline. -/
theorem reports_of_present (w : ω) (hHost : host ≠ some myHostname) {before window : List Poll}
    (hComplete : ∀ p ∈ before ++ window, p.Complete conf) (hReturns : NotifierReturns outside)
    (hOnline : (seen host before).getLastD none = some "online")
    (hPresent : none ∉ seen host window) (hOffline : some "offline" ∈ seen host window) :
    Reports conf outside myHostname w host before window := by
  rw [reports_iff_falls w hHost hComplete hReturns, hOnline]
  exact falls_of_present (by decide) hPresent hOffline

theorem stopped_mem_tagEvents {tag : Element}
    (h : (host, EventConstants.eventStopped) ∈ tagEvents myHostname s tag) :
    host = tag.get "uname" ∧ host ≠ some myHostname ∧ tag.get "crmd" = some "offline" ∧
      ∃ o, s.getHostStatus host = some o := by
  unfold tagEvents at h
  split at h
  · cases h
  · rename_i hOther
    obtain ⟨type, hType, hSame⟩ := List.mem_map.mp h
    obtain ⟨rfl, rfl⟩ := Prod.mk.inj hSame
    obtain ⟨hOffline, o, hOld, -⟩ := stopped_mem_announcement.mp hType
    exact ⟨rfl, hOther, hOffline, o, hOld⟩

theorem stopped_of_handsOver {tag : Element} {events : List (Option String × String)}
    (h : HandsOver s t events) (hSubset : events ⊆ tagEvents myHostname s tag) :
    ∃ new, t.handed = s.handed ++ new ∧ ∀ e ∈ new, e.event = EventConstants.eventStopped →
      e.hostname = tag.get "uname" ∧ e.hostname ≠ some myHostname ∧
        tag.get "crmd" = some "offline" ∧ ∃ o, s.getHostStatus e.hostname = some o := by
  obtain ⟨new, hNew, rfl⟩ := h
  refine ⟨new, hNew, fun e he hStopped => stopped_mem_tagEvents (hSubset ?_)⟩
  rw [← hStopped]
  exact List.mem_map_of_mem he

theorem ends_checkTag_stopped (cib tag : Element) :
    Ends (checkTag conf outside myHostname cib tag) s fun t =>
      ∃ new, t.handed = s.handed ++ new ∧ ∀ e ∈ new, e.event = EventConstants.eventStopped →
        e.hostname = tag.get "uname" ∧ e.hostname ≠ some myHostname ∧
          tag.get "crmd" = some "offline" ∧ ∃ o, s.getHostStatus e.hostname = some o := by
  refine ensures_mono ensures_checkTag (fun _ t hAfter => ?_) (fun _ t hRaise => ?_)
  · exact stopped_of_handsOver hAfter.1 (List.Subset.refl _)
  · rcases hRaise.1 with hNone | hEvents
    · exact stopped_of_handsOver hNone (List.nil_subset _)
    · exact stopped_of_handsOver hEvents (List.Subset.refl _)

/-- A recorded host was shown with a status, by an earlier poll or by a tag passed before. -/
theorem mem_shown_of_recorded {w : ω} {before : List Poll} {cib : Element}
    {passed : List Element} {o : String} (hHost : host ≠ some myHostname)
    (hRun : (monitor conf outside myHostname before >>= fun _ =>
      passed.forM (checkTag conf outside myHostname cib)).run (HandleHost.init w) = .ok () s)
    (hRecorded : s.getHostStatus host = some o) :
    some o ∈ seen host before ++ statusesOf host passed := by
  have hBoth : Ensures (monitor conf outside myHostname before >>= fun _ =>
      passed.forM (checkTag conf outside myHostname cib)) (HandleHost.init w)
      (fun _ t => Follows host (HandleHost.init w) t
        (seen host before ++ statusesOf host passed)) (fun _ _ => True) := by
    rw [ensures_bind]
    refine ensures_mono (ensures_monitor_host before hHost) (fun _ t hBefore => ?_)
      (fun _ _ _ => trivial)
    exact ensures_mono (ensures_checkTags_host cib passed hHost)
      (fun _ u hPassed => follows_append hBefore hPassed) (fun _ _ _ => trivial)
  unfold Ensures at hBoth
  rw [hRun] at hBoth
  -- What is recorded is the last status shown.
  have hLast := hBoth.status
  rw [hRecorded] at hLast
  generalize seen host before ++ statusesOf host passed = shown at hLast
  cases shown with
  | nil => cases hLast
  | cons x xs =>
    rw [hLast, List.getLastD_cons]
    exact List.getLastD_mem_cons

/-- If no check raises, a `STOPPED` of the host is handed over exactly when the host falls;
and in no run is one handed over for a host that is not shown offline or that was not
recorded before. -/
theorem monitor_stopped_iff (w : ω) :
    (∀ host, host ≠ some myHostname → ∀ before window : List Poll,
      (∀ p ∈ before ++ window, p.Complete conf) → NotifierReturns outside →
      (Reports conf outside myHostname w host before window ↔
        Falls ((seen host before).getLastD none :: seen host window))) ∧
    ∀ (before : List Poll) (p : Poll) (passed : List Element) (tag : Element)
      (rest : List Element) (s : HandleHost ω),
      p.nodeStateTagList = passed ++ tag :: rest →
      (monitor conf outside myHostname before >>= fun _ =>
        passed.forM (checkTag conf outside myHostname p.cib)).run (HandleHost.init w) = .ok () s →
      Ends (checkTag conf outside myHostname p.cib tag) s fun t =>
        ∃ new, t.handed = s.handed ++ new ∧ ∀ e ∈ new, e.event = EventConstants.eventStopped →
          e.hostname = tag.get "uname" ∧ tag.get "crmd" = some "offline" ∧
            ∃ o, some o ∈ seen e.hostname before ++ statusesOf e.hostname passed := by
  refine ⟨fun host hHost before window => reports_iff_falls w hHost,
    fun before p passed tag rest s _ hRun => ?_⟩
  refine ends_mono (ends_checkTag_stopped p.cib tag) fun t hAfter => ?_
  obtain ⟨new, hNew, hStopped⟩ := hAfter
  refine ⟨new, hNew, fun e he hType => ?_⟩
  obtain ⟨hName, hOther, hOffline, o, hRecorded⟩ := hStopped e he hType
  exact ⟨hName, hOffline, o, mem_shown_of_recorded hOther hRun hRecorded⟩

end Runs

/-! ## Polls of one host -/

/-- A poll that shows one host, with or without a status. -/
def pollOf (crmd : Option String) : Poll :=
  let attrib := ("uname", "host1") :: (crmd.map fun status => ("crmd", status)).toList
  ⟨⟨"cib", [], []⟩, [⟨"node_state", attrib, []⟩]⟩

/-- A monitor on another host that does without the IPMI check. -/
def noIpmi : HostConf := ⟨true, 5, 3, 12, 10⟩

/-- A notifier that returns. -/
def quiet : Outside Unit where
  execute _ _ := (.raised, ())
  utcnow _ := (0, ())
  sendNotification _ _ _ _ := (none, ())

theorem complete_noIpmi (p : Poll) : p.Complete noIpmi := fun _ _ => Or.inl rfl

theorem notifierReturns_quiet : NotifierReturns quiet := fun _ _ _ _ => rfl

/-- A host that goes offline over a status between. -/
theorem monitor_stopped_iff_pending :
    Reports noIpmi quiet "monitor" () (some "host1") [pollOf (some "online")]
      [pollOf (some "pending"), pollOf (some "offline")] := by
  refine ((monitor_stopped_iff ()).1 (some "host1") (by decide) _ _
    (fun p _ => complete_noIpmi p) notifierReturns_quiet).mpr ⟨"pending", by decide, ?_⟩
  exact ⟨[some "online"], [], rfl⟩

/-- A host that a poll shows online and a later one offline is reported in between. -/
def AlwaysReported : Prop :=
  ∀ (ω : Type) (conf : HostConf) (outside : Outside ω) (myHostname : String) (w : ω)
    (host : String) (before between : List Poll) (p q : Poll),
    host ≠ myHostname → (∀ p' ∈ before ++ p :: between ++ [q], p'.Complete conf) →
    NotifierReturns outside → some "online" ∈ statusesOf (some host) p.nodeStateTagList →
    some "offline" ∈ statusesOf (some host) q.nodeStateTagList →
    Reports conf outside myHostname w (some host) (before ++ [p]) (between ++ [q])

/-- A tag without `crmd` between makes the monitor take the host for a new member. -/
theorem not_alwaysReported : ¬ AlwaysReported := by
  intro h
  obtain ⟨s, t, new, hBefore, hWindow, hNew, e, he, -⟩ :=
    h Unit noIpmi quiet "monitor" () "host1" [] [pollOf none] (pollOf (some "online"))
      (pollOf (some "offline")) (by decide) (fun p _ => complete_noIpmi p) notifierReturns_quiet
      (by decide) (by decide)
  cases hBefore
  cases hWindow
  have hNone : new = [] := by
    have hHanded : ([] : List Event) = [] ++ new := hNew
    exact (List.append_eq_nil_iff.mp hHanded.symm).2
  rw [hNone] at he
  cases he

end MasakariHA.Monitors
