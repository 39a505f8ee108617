import MasakariHA.Lib.History
import MasakariHA.Monitors.HandleHost

/-!
# The main loop of the host monitor

`HandleHost.monitor_hosts`: the check of the corosync line, the check of the own host with
`crmadmin`, and the poll of the cluster with `cibadmin`, round after round until `stop` is called
or an exception ends the loop.

* `monitorRound`, `monitorHosts`: the loop, told by its first rounds;
* `recorded`: an outside that keeps a log of the commands and the notifications;
* `monitorHosts_follows`: the loop hands over what the polls of its log announce;
* `monitorHosts_grounded`: every notification rests on a poll that was made right after the own
  host was seen to be stable.
-/

namespace MasakariHA.Monitors

open Lib

/-- The options that only the main loop reads. -/
structure LoopConf extends HostConf where
  corosyncMulticastInterfaces : Option String
  corosyncMulticastPorts : Option String
  tcpdumpTimeout : Int
  stonithWait : Int
  monitoringInterval : Int

/-- What the main loop uses besides. `running` is the flag that `stop` clears, and `fromstring`
the parser of `ElementTree` (`none` is its `ParseError`). -/
structure LoopOutside (ω : Type) extends Outside ω where
  sleep : Int → ω → ω
  setRunning : ω → ω
  running : ω → Bool
  fromstring : String → Option Element

/-- `_get_status_tag` and `_get_node_states`. -/
def getNodeStateTagList (cib : Element) : List Element :=
  match cib.childTagged "status" with
  | none => []
  | some status => status.childrenTagged "node_state"

/-- The argument of `cibadmin`. -/
def cibadminQuery : List String := ["cibadmin", "--query"]

def statusCommand (targetService : String) : List String := ["systemctl", "status", targetService]

def crmadminCommand (myHostname : String) : List String := ["crmadmin", "-S", myHostname]

section Loop

variable {ω : Type} (conf : LoopConf) (outside : LoopOutside ω) (myHostname : String)

def sleep (seconds : Int) : HostM ω Unit :=
  modify fun s => { s with outside := outside.sleep seconds s.outside }

def checkPacemakerServices (targetService : String) : HostM ω Bool := do
  match ← execute outside.toOutside (statusCommand targetService) with
  | .returned _ err => pure (err = "")
  | .raised => pure false

/-- The loop over the interfaces, which ends at the first one that something is received on. -/
def isNicNormal : List (String × String) → HostM ω Bool
  | [] => pure false
  | (interface, port) :: rest => do
    let cmdStr := s!"timeout {conf.tcpdumpTimeout} tcpdump -n -c 1 -p -i {interface} port {port}"
    match ← execute outside.toOutside (cmdStr.splitOn " ") with
    | .returned _ _ => pure true
    | .raised => isNicNormal rest

/-- `0` if normal, `1` if abnormal, `2` if the configuration is wrong or nothing is running. -/
def checkHbLine : HostM ω Nat := do
  let corosyncStatus ← checkPacemakerServices outside "corosync"
  let pacemakerStatus ← checkPacemakerServices outside "pacemaker"
  let pacemakerRemoteStatus ← checkPacemakerServices outside "pacemaker_remote"
  if corosyncStatus = false ∨ pacemakerStatus = false then
    pure (if pacemakerRemoteStatus = false then 2 else 0)
  else
    match conf.corosyncMulticastInterfaces, conf.corosyncMulticastPorts with
    | some interfaces, some ports =>
      if (interfaces.splitOn ",").length ≠ (ports.splitOn ",").length then pure 2
      else do
        let normal ← isNicNormal conf outside ((interfaces.splitOn ",").zip (ports.splitOn ","))
        pure (if normal = false then 1 else 0)
    | _, _ => pure 2

def checkHostStatusByCrmadmin : HostM ω Nat := do
  match ← execute outside.toOutside (crmadminCommand myHostname) with
  | .returned out err =>
    pure (if err = "" ∧ (PyString.contains out "S_IDLE" ∨ PyString.contains out "S_NOT_DC") then 0
      else 1)
  | .raised => pure 1

def getCibXml : HostM ω (Option String) := do
  match ← execute outside.toOutside cibadminQuery with
  | .returned out err => pure (if err = "" then some out else none)
  | .raised => pure none

/-- `ParseCibXml.have_quorum`; `int` of `None` raises as well. -/
def haveQuorum (cib : Element) : Except Exc Int :=
  match cib.get "have-quorum" with
  | none => .error (.other "TypeError")
  | some value =>
    match PyString.int value with
    | none => .error (.other "ValueError")
    | some quorum => .ok quorum

/-- What `_check_host_status_by_cibadmin` gets from an answer: the poll, unless it raises. -/
def pollOfXml (cibXml : String) : Except Exc Poll :=
  match outside.fromstring cibXml with
  | none => .error (.other "ParseError")
  | some cib => do
    -- Without a quorum there is only a warning.
    let _ ← haveQuorum cib
    if (getNodeStateTagList cib).isEmpty then .error (.other "Exception")
    else .ok ⟨cib, getNodeStateTagList cib⟩

def checkHostStatusByCibadmin : HostM ω Nat := do
  match ← getCibXml outside with
  | none => pure 1
  | some cibXml => do
    let p ← MonadExcept.ofExcept (pollOfXml outside cibXml)
    checkIfStatusChanged conf.toHostConf outside.toOutside myHostname p
    pure 0

/-- The check with `crmadmin`, which is left out on a `pacemaker_remote` node. -/
def ownHostStable : HostM ω Bool := do
  let pacemakerRemoteStatus ← checkPacemakerServices outside "pacemaker_remote"
  if pacemakerRemoteStatus = false then do
    let ret ← checkHostStatusByCrmadmin outside myHostname
    pure (ret = 0)
  else pure true

/-- The part of a round after the check of the corosync line. -/
def pollCluster : HostM ω Unit := do
  let stable ← ownHostStable outside myHostname
  if stable = false then sleep outside conf.monitoringInterval
  else do
    -- A failure of `cibadmin` makes no difference but for a warning.
    let _ ← checkHostStatusByCibadmin conf outside myHostname
    sleep outside conf.monitoringInterval

/-- One round of the loop of `monitor_hosts`. -/
def monitorRound : HostM ω Unit := do
  let ret ← checkHbLine conf outside
  if ret = 1 then do
    -- The own host may be fenced in the meantime.
    sleep outside conf.stonithWait
    pollCluster conf outside myHostname
  else if ret = 2 then sleep outside conf.monitoringInterval
  else pollCluster conf outside myHostname

/-- Where the loop stands after some rounds. -/
inductive LoopEnd where
  /-- It goes on. -/
  | running
  /-- `stop` has ended it. -/
  | stopped
  /-- An exception has ended it. -/
  | raised (e : Exc)

/-- The first rounds of the loop, which `stop` may end before. -/
def monitorRounds : Nat → HostM ω LoopEnd
  | 0 => pure .running
  | n + 1 => do
    let s ← get
    if outside.running s.outside = true then do
      monitorRound conf outside myHostname
      monitorRounds n
    else pure .stopped

/-- `monitor_hosts` for as many rounds. -/
def monitorHosts (rounds : Nat) : HostM ω LoopEnd :=
  tryCatch (do
    modify fun s => { s with outside := outside.setRunning s.outside }
    monitorRounds conf outside myHostname rounds) fun e => pure (.raised e)

end Loop

/-! ## The log -/

/-- What the monitor does to the world: it runs a command, or it sends an event. -/
inductive Act where
  | ran (command : List String) (result : Execution)
  | sent (event : Event)

/-- The same outside, with a log. -/
def recorded {ω : Type} (outside : LoopOutside ω) : LoopOutside (ω × List Act) where
  execute command w :=
    let (r, v) := outside.execute command w.1
    (r, v, w.2 ++ [.ran command r])
  utcnow w :=
    let (t, v) := outside.utcnow w.1
    (t, v, w.2)
  sendNotification retryMax interval event w :=
    let (r, v) := outside.sendNotification retryMax interval event w.1
    (r, v, w.2 ++ [.sent event])
  sleep seconds w := (outside.sleep seconds w.1, w.2)
  setRunning w := (outside.setRunning w.1, w.2)
  running w := outside.running w.1
  fromstring := outside.fromstring

/-- The log of a state. -/
def HandleHost.log {ω : Type} (s : HandleHost (ω × List Act)) : List Act := s.outside.2

/-- The poll that comes out of an execution of `cibadmin`. -/
def pollOfResult {ω : Type} (outside : LoopOutside ω) : Execution → Option Poll
  | .returned out err => if err = "" then (pollOfXml outside out).toOption else none
  | .raised => none

/-- The poll of an entry of the log. -/
def pollOfAct {ω : Type} (outside : LoopOutside ω) : Act → Option Poll
  | .ran command result => if command = cibadminQuery then pollOfResult outside result else none
  | .sent _ => none

/-- The polls that a log shows. -/
def pollsOf {ω : Type} (outside : LoopOutside ω) (log : List Act) : List Poll :=
  log.filterMap (pollOfAct outside)

/-- Entries that show no poll. -/
def NoPoll (acts : List Act) : Prop :=
  ∀ command result, .ran command result ∈ acts → command ≠ cibadminQuery

section Log

variable {ω : Type} {outside : LoopOutside ω} {conf : LoopConf} {myHostname : String}
  {s t u : HandleHost (ω × List Act)}

theorem pollsOf_append (log acts : List Act) :
    pollsOf outside (log ++ acts) = pollsOf outside log ++ pollsOf outside acts :=
  List.filterMap_append

theorem pollsOf_noPoll {acts : List Act} (h : NoPoll acts) : pollsOf outside acts = [] := by
  rw [pollsOf, List.filterMap_eq_nil_iff]
  intro act hMem
  cases act with
  | sent event => rfl
  | ran command result =>
    show (if command = cibadminQuery then pollOfResult outside result else none) = none
    rw [if_neg (h command result hMem)]

theorem noPoll_append {acts acts' : List Act} (h : NoPoll acts) (h' : NoPoll acts') :
    NoPoll (acts ++ acts') := by
  intro command result hMem
  rcases List.mem_append.mp hMem with hMem | hMem
  · exact h command result hMem
  · exact h' command result hMem

theorem noPoll_sent (event : Event) : NoPoll [.sent event] := by
  intro command result hMem
  simp at hMem

/-- A command line that begins with `timeout`. -/
theorem timeout_ne_cibadminQuery (rest : String) :
    ("timeout " ++ rest).splitOn " " ≠ cibadminQuery := by
  intro hSame
  have hWord : "timeout".toList.all (· != ' ') = true := by decide
  have hHead := PyString.head?_splitOn_space hWord rest
  rw [show "timeout" ++ " " = "timeout " by decide] at hHead
  rw [hSame] at hHead
  exact absurd hHead (by decide)

/-- From `s` to `t` commands are run other than `cibadmin`, and nothing else happens. -/
def Runs (s t : HandleHost (ω × List Act)) : Prop :=
  Same s t ∧ ∃ acts, t.log = s.log ++ acts ∧
    ∀ act ∈ acts, ∃ command result, act = .ran command result ∧ command ≠ cibadminQuery

theorem runs_refl (s : HandleHost (ω × List Act)) : Runs s s :=
  ⟨⟨rfl, rfl⟩, [], (List.append_nil _).symm, fun _ hMem => absurd hMem List.not_mem_nil⟩

theorem runs_trans (h : Runs s t) (h' : Runs t u) : Runs s u := by
  obtain ⟨hSame, acts, hLog, hActs⟩ := h
  obtain ⟨hSame', acts', hLog', hActs'⟩ := h'
  refine ⟨same_trans hSame hSame', acts ++ acts', by rw [hLog', hLog, List.append_assoc], ?_⟩
  intro act hMem
  rcases List.mem_append.mp hMem with hMem | hMem
  · exact hActs act hMem
  · exact hActs' act hMem

theorem runs_noPoll (h : Runs s t) : ∃ acts, t.log = s.log ++ acts ∧ NoPoll acts := by
  obtain ⟨-, acts, hLog, hActs⟩ := h
  refine ⟨acts, hLog, fun command result hMem => ?_⟩
  obtain ⟨command', result', hSame, hOther⟩ := hActs _ hMem
  obtain ⟨rfl, -⟩ := Act.ran.inj hSame
  exact hOther

/-- One execution: the log gets its entry. -/
theorem ensures_recorded (command : List String) :
    Ensures (execute (recorded outside).toOutside command) s
      (fun r t => t.log = s.log ++ [.ran command r] ∧ Same s t) (fun _ _ => False) := by
  unfold execute
  rw [ensures_bind, ensures_get]
  exact ⟨rfl, rfl, rfl⟩

theorem runs_of_recorded {command : List String} {r : Execution} (hOther : command ≠ cibadminQuery)
    (h : t.log = s.log ++ [.ran command r] ∧ Same s t) : Runs s t := by
  refine ⟨h.2, _, h.1, fun act hMem => ?_⟩
  obtain rfl := List.mem_singleton.mp hMem
  exact ⟨command, r, rfl, hOther⟩

/-- A program that runs one command and goes on. -/
theorem ends_execute_bind {α : Type} {command : List String}
    {f : Execution → HostM (ω × List Act) α} (hOther : command ≠ cibadminQuery)
    (h : ∀ r t, Runs s t → Ends (f r) t (Runs s)) :
    Ends (execute (recorded outside).toOutside command >>= f) s (Runs s) := by
  unfold Ends
  rw [ensures_bind]
  exact ensures_mono (ensures_recorded command)
    (fun r t hAfter => h r t (runs_of_recorded hOther hAfter)) (fun _ _ hNot => hNot.elim)

theorem ends_bind {α β : Type} {x : HostM (ω × List Act) α} {f : α → HostM (ω × List Act) β}
    (hx : Ends x s (Runs s)) (h : ∀ a t, Runs s t → Ends (f a) t (Runs t)) :
    Ends (x >>= f) s (Runs s) := by
  unfold Ends
  rw [ensures_bind]
  exact ensures_mono hx
    (fun a t hRuns => ends_mono (h a t hRuns) fun _ hAfter => runs_trans hRuns hAfter)
    (fun _ _ hRuns => hRuns)

end Log

/-! ## The parts of a round that make no poll -/

section Parts

variable {ω : Type} {outside : LoopOutside ω} {conf : LoopConf} {myHostname : String}
  {s t u : HandleHost (ω × List Act)}

theorem ends_sleep (seconds : Int) :
    Ends (sleep (recorded outside) seconds) s (Runs s) :=
  ⟨⟨rfl, rfl⟩, [], (List.append_nil _).symm, fun _ hMem => absurd hMem List.not_mem_nil⟩

theorem statusCommand_ne_cibadminQuery (targetService : String) :
    statusCommand targetService ≠ cibadminQuery := by
  intro hSame
  simp [statusCommand, cibadminQuery] at hSame

theorem ends_checkPacemakerServices (targetService : String) :
    Ends (checkPacemakerServices (recorded outside) targetService) s (Runs s) := by
  apply ends_execute_bind (statusCommand_ne_cibadminQuery targetService)
  intro r t hRuns
  cases r with
  | raised => exact hRuns
  | returned out err => exact hRuns

theorem ends_isNicNormal (nics : List (String × String)) :
    Ends (isNicNormal conf (recorded outside) nics) s (Runs s) := by
  induction nics generalizing s with
  | nil => exact runs_refl s
  | cons nic rest ih =>
    obtain ⟨interface, port⟩ := nic
    unfold isNicNormal
    apply ends_execute_bind
    · simp only [String.append_assoc]
      exact timeout_ne_cibadminQuery _
    · intro r t hRuns
      cases r with
      | returned out err => exact hRuns
      | raised => exact ends_mono ih fun _ hAfter => runs_trans hRuns hAfter

theorem ends_checkHbLine : Ends (checkHbLine conf (recorded outside)) s (Runs s) := by
  unfold checkHbLine
  apply ends_bind (ends_checkPacemakerServices _)
  intro corosyncStatus t _
  apply ends_bind (ends_checkPacemakerServices _)
  intro pacemakerStatus t _
  apply ends_bind (ends_checkPacemakerServices _)
  intro pacemakerRemoteStatus t _
  split
  · exact runs_refl t
  · split
    · split
      · exact runs_refl t
      · exact ends_bind (ends_isNicNormal _) fun _ u _ => runs_refl u
    · exact runs_refl t

/-- The own host was just seen to be stable: it is a `pacemaker_remote` node, or `crmadmin` has
said so. -/
def SeenStable (myHostname : String) (log : List Act) : Prop :=
  (∃ before out,
    log = before ++ [.ran (statusCommand "pacemaker_remote") (.returned out "")]) ∨
  ∃ before out,
    log = before ++ [.ran (crmadminCommand myHostname) (.returned out "")] ∧
      (PyString.contains out "S_IDLE" = true ∨ PyString.contains out "S_NOT_DC" = true)

theorem crmadminCommand_ne_cibadminQuery (myHostname : String) :
    crmadminCommand myHostname ≠ cibadminQuery := by
  intro hSame
  simp [crmadminCommand, cibadminQuery] at hSame

theorem ensures_checkHostStatusByCrmadmin :
    Ensures (checkHostStatusByCrmadmin (recorded outside) myHostname) s
      (fun ret t => Runs s t ∧ (ret = 0 → SeenStable myHostname t.log)) (fun _ _ => False) := by
  unfold checkHostStatusByCrmadmin
  rw [ensures_bind]
  refine ensures_mono (ensures_recorded _) (fun r t hAfter => ?_) (fun _ _ hNot => hNot)
  have hRuns := runs_of_recorded (crmadminCommand_ne_cibadminQuery myHostname) hAfter
  cases r with
  | raised => exact ⟨hRuns, fun hZero => absurd hZero (by decide)⟩
  | returned out err =>
    refine ⟨hRuns, fun hZero => ?_⟩
    split at hZero
    · rename_i hStable
      obtain ⟨rfl, hOut⟩ := hStable
      exact Or.inr ⟨s.log, out, hAfter.1, hOut⟩
    · cases hZero

theorem ensures_ownHostStable :
    Ensures (ownHostStable (recorded outside) myHostname) s
      (fun stable t => Runs s t ∧ (stable = true → SeenStable myHostname t.log))
      (fun _ _ => False) := by
  unfold ownHostStable checkPacemakerServices
  simp only [ensures_bind]
  refine ensures_mono (ensures_recorded _) (fun r t hAfter => ?_) (fun _ _ hNot => hNot)
  have hRuns := runs_of_recorded (statusCommand_ne_cibadminQuery _) hAfter
  have hCrmadmin : Ensures (checkHostStatusByCrmadmin (recorded outside) myHostname) t
      (fun ret u => Runs s u ∧ (decide (ret = 0) = true → SeenStable myHostname u.log))
      (fun _ _ => False) := by
    refine ensures_mono ensures_checkHostStatusByCrmadmin (fun ret u h => ?_) (fun _ _ hNot => hNot)
    exact ⟨runs_trans hRuns h.1, fun hZero => h.2 (of_decide_eq_true hZero)⟩
  cases r with
  | raised => simpa using hCrmadmin
  | returned out err =>
    by_cases hErr : err = ""
    · subst hErr
      exact ⟨hRuns, fun _ => Or.inl ⟨s.log, out, hAfter.1⟩⟩
    · simpa [hErr] using hCrmadmin

/-! ## The power state of a host -/

/-- `str` of a parameter that is there. -/
def ipmiText (value : Option (Option String)) : String := value.join.getD "None"

/-- The command line of `_is_poweroff`. -/
def ipmitoolCommand (conf : HostConf) (v : IpmiValues) : List String :=
  (s!"timeout {conf.ipmiTimeout} ipmitool -U {ipmiText v.userid} -P {ipmiText v.passwd} " ++
    s!"-I {ipmiText v.interface} -H {ipmiText v.ipaddr} power status").splitOn " "

theorem ipmitoolCommand_ne_cibadminQuery (conf : HostConf) (v : IpmiValues) :
    ipmitoolCommand conf v ≠ cibadminQuery := by
  unfold ipmitoolCommand
  simp only [String.append_assoc]
  exact timeout_ne_cibadminQuery _

/-- The command has just said that the power is off. -/
def SeenOff (command : List String) (log : List Act) : Prop :=
  ∃ before out, log = before ++ [.ran command (.returned out "")] ∧
    PyString.contains out "Power is off" = true

theorem ensures_powerStatus_recorded {command : List String} (hOther : command ≠ cibadminQuery)
    (retries : Nat) :
    Ensures (powerStatus (recorded outside).toOutside command retries) s
      (fun off t => Runs s t ∧ (off = true → SeenOff command t.log)) (fun _ _ => False) := by
  induction retries generalizing s with
  | zero =>
    unfold powerStatus
    rw [ensures_bind]
    refine ensures_mono (ensures_recorded _) (fun r t hAfter => ?_) (fun _ _ hNot => hNot)
    have hRuns := runs_of_recorded hOther hAfter
    cases r with
    | raised => exact ⟨hRuns, fun hOff => absurd hOff Bool.false_ne_true⟩
    | returned out err =>
      refine ⟨hRuns, fun hOff => ?_⟩
      obtain ⟨rfl, hOut⟩ := of_decide_eq_true hOff
      exact ⟨s.log, out, hAfter.1, hOut⟩
  | succ retries ih =>
    unfold powerStatus
    rw [ensures_bind]
    refine ensures_mono (ensures_recorded _) (fun r t hAfter => ?_) (fun _ _ hNot => hNot)
    have hRuns := runs_of_recorded hOther hAfter
    have hRetry : Ensures (powerStatus (recorded outside).toOutside command retries) t
        (fun off u => Runs s u ∧ (off = true → SeenOff command u.log)) (fun _ _ => False) :=
      ensures_mono ih (fun _ _ h => ⟨runs_trans hRuns h.1, h.2⟩) (fun _ _ hNot => hNot)
    cases r with
    | raised => exact hRetry
    | returned out err =>
      dsimp only
      split
      · rename_i hOff
        obtain ⟨rfl, hOut⟩ := hOff
        exact ⟨hRuns, fun _ => ⟨s.log, out, hAfter.1, hOut⟩⟩
      · exact hRetry

theorem ensures_ipmiParam_text {value : Option (Option String)} :
    Ensures (ipmiParam value) s (fun text t => t = s ∧ text = ipmiText value)
      (fun _ t => t = s) := by
  cases value with
  | none => rfl
  | some v => exact ⟨rfl, rfl⟩

theorem ensures_isPoweroff_recorded {cib : Element} {hostname : Option String} :
    Ensures (isPoweroff conf.toHostConf (recorded outside).toOutside cib hostname) s
      (fun off t => Runs s t ∧ (off = true → ∃ v, getStonithIpmiParams cib hostname = some v ∧
        SeenOff (ipmitoolCommand conf.toHostConf v) t.log))
      (fun _ t => Runs s t) := by
  unfold isPoweroff
  split
  · exact ⟨runs_refl s, fun hOff => absurd hOff Bool.false_ne_true⟩
  · rename_i v hParams
    have hRaise : ∀ (_ : Exc) (t : HandleHost (ω × List Act)), t = s → Runs s t := by
      rintro _ t rfl
      exact runs_refl t
    simp only [ensures_bind]
    refine ensures_mono ensures_ipmiParam_text ?_ hRaise
    rintro userid _ ⟨rfl, rfl⟩
    refine ensures_mono ensures_ipmiParam_text ?_ hRaise
    rintro passwd _ ⟨rfl, rfl⟩
    refine ensures_mono ensures_ipmiParam_text ?_ hRaise
    rintro interface _ ⟨rfl, rfl⟩
    refine ensures_mono ensures_ipmiParam_text ?_ hRaise
    rintro ipaddr _ ⟨rfl, rfl⟩
    refine ensures_mono (ensures_powerStatus_recorded
      (ipmitoolCommand_ne_cibadminQuery conf.toHostConf v) _) (fun off t h => ?_)
      (fun _ _ hNot => hNot.elim)
    exact ⟨h.1, fun hOff => ⟨v, hParams, h.2 hOff⟩⟩

/-- What the `host_status` of an event stands for. -/
def HostStatusSeen (conf : HostConf) (cib : Element) (log : List Act) (e : Event) : Prop :=
  (e.hostStatus = EventConstants.hostStatusNormal ∧
    (e.event = EventConstants.eventStarted ∨ conf.disableIpmiCheck = true ∨
      ∃ v, getStonithIpmiParams cib e.hostname = some v ∧ SeenOff (ipmitoolCommand conf v) log)) ∨
  (e.hostStatus = EventConstants.hostStatusUnknown ∧ e.event = EventConstants.eventStopped ∧
    conf.disableIpmiCheck = false)

theorem ensures_makeEvent_recorded {cib : Element} {hostname : Option String} (status : String) :
    Ensures (makeEvent conf.toHostConf (recorded outside).toOutside cib hostname status) s
      (fun e t => Runs s t ∧ e.hostname = hostname ∧ e.event = eventOf status ∧
        HostStatusSeen conf.toHostConf cib t.log e)
      (fun _ t => Runs s t) := by
  have hUtcnow : ∀ (t : HandleHost (ω × List Act)) (hostStatus : String), Runs s t →
      (∀ e : Event, e.hostname = hostname → e.event = eventOf status →
        e.hostStatus = hostStatus → HostStatusSeen conf.toHostConf cib t.log e) →
      Ensures (utcnow (recorded outside).toOutside >>= fun currentTime =>
        pure ⟨EventConstants.typeComputeHost, hostname, currentTime, eventOf status,
          PyString.upper status, hostStatus⟩) t
        (fun e u => Runs s u ∧ e.hostname = hostname ∧ e.event = eventOf status ∧
          HostStatusSeen conf.toHostConf cib u.log e)
        (fun _ u => Runs s u) := by
    intro t hostStatus hRuns hSeen
    exact ⟨hRuns, rfl, rfl, hSeen _ rfl rfl rfl⟩
  unfold makeEvent
  rw [ensures_bind]
  by_cases hOnline : status = "online"
  · rw [if_pos hOnline]
    refine hUtcnow s _ (runs_refl s) fun e _ hEvent hStatus => Or.inl ⟨hStatus, Or.inl ?_⟩
    rw [hEvent, eventOf, if_pos hOnline]
  · rw [if_neg hOnline]
    have hStopped : eventOf status = EventConstants.eventStopped := if_neg hOnline
    unfold stoppedHostStatus
    split
    · rename_i hDisabled
      exact hUtcnow s _ (runs_refl s) fun e _ _ hStatus =>
        Or.inl ⟨hStatus, Or.inr (Or.inl hDisabled)⟩
    · rename_i hCheck
      rw [ensures_bind]
      refine ensures_mono ensures_isPoweroff_recorded (fun off t hOff => ?_) (fun _ _ h => h)
      cases off with
      | true =>
        obtain ⟨v, hParams, hSeen⟩ := hOff.2 rfl
        refine hUtcnow t _ hOff.1 fun e hName _ hStatus => Or.inl ⟨hStatus, Or.inr (Or.inr ?_)⟩
        exact ⟨v, hName ▸ hParams, hSeen⟩
      | false =>
        refine hUtcnow t _ hOff.1 fun e _ hEvent hStatus => Or.inr ⟨hStatus, ?_, ?_⟩
        · rw [hEvent, hStopped]
        · exact Bool.eq_false_iff.mpr hCheck

end Parts

/-! ## What a notification rests on -/

/-- The last `cibadmin` of the log gave the poll, right after the own host was seen stable. -/
def Viewing {ω : Type} (outside : LoopOutside ω) (myHostname : String) (p : Poll)
    (log : List Act) : Prop :=
  ∃ before result after, log = before ++ .ran cibadminQuery result :: after ∧
    SeenStable myHostname before ∧ pollOfResult outside result = some p ∧ NoPoll after

/-- An event is one of a `node_state` tag of the poll. -/
def ofTag (e : Event) (tag : Element) : Prop :=
  tag.get "uname" = e.hostname ∧
    ((tag.get "crmd" = some "online" ∧ e.event = EventConstants.eventStarted) ∨
      (tag.get "crmd" = some "offline" ∧ e.event = EventConstants.eventStopped))

/-- What an entry of the log rests on. -/
def Grounded {ω : Type} (conf : HostConf) (outside : LoopOutside ω) (myHostname : String)
    (before : List Act) : Act → Prop
  | .ran _ _ => True
  | .sent e => ∃ p, Viewing outside myHostname p before ∧ e.hostname ≠ some myHostname ∧
      (∃ tag ∈ p.nodeStateTagList, ofTag e tag) ∧ HostStatusSeen conf p.cib before e

section Grounds

variable {ω : Type} {outside : LoopOutside ω} {conf : LoopConf} {myHostname : String}
  {s t u : HandleHost (ω × List Act)} {p : Poll}

/-- From `s` to `t` there is no poll. -/
def Unpolled (s t : HandleHost (ω × List Act)) : Prop :=
  ∃ acts, t.log = s.log ++ acts ∧ NoPoll acts

theorem unpolled_trans (h : Unpolled s t) (h' : Unpolled t u) : Unpolled s u := by
  obtain ⟨acts, hLog, hActs⟩ := h
  obtain ⟨acts', hLog', hActs'⟩ := h'
  exact ⟨acts ++ acts', by rw [hLog', hLog, List.append_assoc], noPoll_append hActs hActs'⟩

theorem viewing_unpolled (h : Unpolled s t) (hView : Viewing outside myHostname p s.log) :
    Viewing outside myHostname p t.log := by
  obtain ⟨acts, hLog, hActs⟩ := h
  obtain ⟨before, result, after, hSplit, hStable, hPoll, hAfter⟩ := hView
  refine ⟨before, result, after ++ acts, ?_, hStable, hPoll, noPoll_append hAfter hActs⟩
  rw [hLog, hSplit, List.append_assoc, List.cons_append]

theorem along_runs (h : Runs s t)
    (hAlong : Along (Grounded conf.toHostConf outside myHostname) s.log) :
    Along (Grounded conf.toHostConf outside myHostname) t.log := by
  obtain ⟨-, acts, hLog, hActs⟩ := h
  rw [hLog]
  clear hLog
  induction acts using List.reverseRecOn with
  | nil => rwa [List.append_nil]
  | append_singleton acts act ih =>
    rw [← List.append_assoc, along_append_singleton]
    refine ⟨ih fun a hMem => hActs a (List.mem_append_left _ hMem), ?_⟩
    obtain ⟨command, result, rfl, -⟩ := hActs act (by simp)
    trivial

theorem ends_sendNotification_recorded (e : Event) :
    Ends (sendNotification conf.toHostConf (recorded outside).toOutside e) s
      fun t => t.log = s.log ++ [.sent e] := by
  unfold sendNotification Ends
  simp only [ensures_bind, ensures_get, ensures_set]
  split <;> rfl

/-- What the check of a tag leaves in the log. -/
def Checked (conf : HostConf) (outside : LoopOutside ω) (myHostname : String) (p : Poll)
    (s t : HandleHost (ω × List Act)) : Prop :=
  Unpolled s t ∧ (Viewing outside myHostname p s.log →
    Along (Grounded conf outside myHostname) s.log →
      Along (Grounded conf outside myHostname) t.log)

theorem checked_of_runs (h : Runs s t) : Checked conf.toHostConf outside myHostname p s t :=
  ⟨runs_noPoll h, fun _ => along_runs h⟩

theorem checked_of_log (h : t.log = s.log) : Checked conf.toHostConf outside myHostname p s t :=
  ⟨⟨[], by rw [h, List.append_nil], fun _ _ hMem => absurd hMem List.not_mem_nil⟩,
    fun _ hAlong => h ▸ hAlong⟩

theorem ends_notifyIfChanged {tag : Element} (hTag : tag ∈ p.nodeStateTagList)
    (hOwn : tag.get "uname" ≠ some myHostname) (oldStatus : String) :
    Ends (notifyIfChanged conf.toHostConf (recorded outside).toOutside p.cib (tag.get "uname")
      oldStatus (tag.get "crmd")) s (Checked conf.toHostConf outside myHostname p s) := by
  unfold notifyIfChanged
  split
  · exact checked_of_runs (runs_refl s)
  · rename_i status hStatus
    split
    · rename_i hChanged
      unfold Ends
      rw [ensures_bind]
      refine ensures_mono (ensures_makeEvent_recorded status) (fun e t hMade => ?_)
        (fun _ _ hRuns => checked_of_runs hRuns)
      obtain ⟨hRuns, hName, hEvent, hSeen⟩ := hMade
      refine ends_mono (ends_sendNotification_recorded e) fun u hLog => ⟨?_, fun hView hAlong => ?_⟩
      · exact unpolled_trans (runs_noPoll hRuns) ⟨_, hLog, noPoll_sent e⟩
      · rw [hLog, along_append_singleton]
        refine ⟨along_runs hRuns hAlong, p, viewing_unpolled (runs_noPoll hRuns) hView,
          hName ▸ hOwn, ⟨tag, hTag, hName.symm, ?_⟩, hSeen⟩
        -- Only these two statuses are sent.
        rcases hChanged.2 with rfl | rfl
        · exact Or.inl ⟨hStatus, hEvent⟩
        · exact Or.inr ⟨hStatus, hEvent⟩
    · exact checked_of_runs (runs_refl s)

theorem ends_checkTag {tag : Element} (hTag : tag ∈ p.nodeStateTagList) :
    Ends (checkTag conf.toHostConf (recorded outside).toOutside myHostname p.cib tag) s
      (Checked conf.toHostConf outside myHostname p s) := by
  unfold checkTag
  split
  · exact checked_of_runs (runs_refl s)
  · rename_i hOwn
    unfold Ends
    rw [ensures_bind, ensures_get]
    split
    · exact checked_of_log rfl
    · rw [ensures_bind]
      exact ensures_mono (ends_notifyIfChanged hTag hOwn _) (fun _ _ h => h) (fun _ _ h => h)

theorem ends_checkIfStatusChanged :
    Ends (checkIfStatusChanged conf.toHostConf (recorded outside).toOutside myHostname p) s
      (Checked conf.toHostConf outside myHostname p s) := by
  unfold checkIfStatusChanged Ends
  refine ensures_forM_prefix (fun _ => Checked conf.toHostConf outside myHostname p s)
    (checked_of_runs (runs_refl s)) fun tag hTag passed t hPassed => ?_
  have hNext : ∀ u, Checked conf.toHostConf outside myHostname p t u →
      Checked conf.toHostConf outside myHostname p s u := by
    intro u h
    refine ⟨unpolled_trans hPassed.1 h.1, fun hView hAlong => ?_⟩
    exact h.2 (viewing_unpolled hPassed.1 hView) (hPassed.2 hView hAlong)
  exact ends_mono (ends_checkTag hTag) hNext

end Grounds

/-! ## Rounds -/

section Rounds

variable {ω : Type} {outside : LoopOutside ω} {conf : LoopConf} {myHostname : String}
  {s t u : HandleHost (ω × List Act)} {Q E : HandleHost (ω × List Act) → Prop}

/-- An execution of `cibadmin` gives no poll, or one whose tags are checked. -/
theorem ensures_checkHostStatusByCibadmin
    (hNone : ∀ t r, t.log = s.log ++ [.ran cibadminQuery r] → Same s t →
      pollOfResult outside r = none → Q t ∧ E t)
    (hSome : ∀ t r p, t.log = s.log ++ [.ran cibadminQuery r] → Same s t →
      pollOfResult outside r = some p →
      Ensures (checkIfStatusChanged conf.toHostConf (recorded outside).toOutside myHostname p) t
        (fun _ => Q) (fun _ => E)) :
    Ensures (checkHostStatusByCibadmin conf (recorded outside) myHostname) s (fun _ => Q)
      (fun _ => E) := by
  unfold checkHostStatusByCibadmin getCibXml
  simp only [ensures_bind]
  refine ensures_mono (ensures_recorded cibadminQuery) (fun r t hAfter => ?_)
    (fun _ _ hNot => hNot.elim)
  obtain ⟨hLog, hSame⟩ := hAfter
  cases r with
  | raised => exact (hNone t _ hLog hSame rfl).1
  | returned out err =>
    by_cases hErr : err = ""
    · have hXml : pollOfResult outside (.returned out err) = (pollOfXml outside out).toOption :=
        if_pos hErr
      rw [ensures_pure, if_pos hErr]
      simp only [ensures_bind, ensures_ofExcept]
      have hRecorded : pollOfXml (recorded outside) out = pollOfXml outside out := rfl
      rw [hRecorded]
      cases hPoll : pollOfXml outside out with
      | error e =>
        rw [hPoll] at hXml
        exact (hNone t _ hLog hSame hXml).2
      | ok p =>
        rw [hPoll] at hXml
        exact hSome t _ p hLog hSame hXml
    · have hXml : pollOfResult outside (.returned out err) = none := if_neg hErr
      rw [ensures_pure, if_neg hErr]
      exact (hNone t _ hLog hSame hXml).1

/-- What the executions between the polls keep, and every poll of a stable host, is kept by the
loop. -/
theorem ensures_monitorRounds (hRuns : ∀ t u, Runs t u → Q t → Q u) (hRaise : ∀ t, Q t → E t)
    (hPoll : ∀ t, Q t → SeenStable myHostname t.log →
      Ensures (checkHostStatusByCibadmin conf (recorded outside) myHostname) t (fun _ => Q)
        (fun _ => E)) (n : Nat) (hStart : Q s) :
    Ensures (monitorRounds conf (recorded outside) myHostname n) s (fun _ => Q) (fun _ => E) := by
  have hSleep : ∀ seconds t, Q t →
      Ensures (sleep (recorded outside) seconds) t (fun _ => Q) (fun _ => E) := fun seconds t ht =>
    ensures_mono (ends_sleep seconds) (fun _ u h => hRuns t u h ht)
      (fun _ u h => hRaise u (hRuns t u h ht))
  have hCluster : ∀ t, Q t →
      Ensures (pollCluster conf (recorded outside) myHostname) t (fun _ => Q) (fun _ => E) := by
    intro t ht
    unfold pollCluster
    rw [ensures_bind]
    refine ensures_mono ensures_ownHostStable (fun stable u hStable => ?_)
      (fun _ _ hNot => hNot.elim)
    have hu := hRuns t u hStable.1 ht
    cases stable with
    | false => exact hSleep _ u hu
    | true =>
      refine ensures_bind.mpr (ensures_mono (hPoll u hu (hStable.2 rfl)) (fun _ v hv => ?_)
        (fun _ _ h => h))
      exact hSleep _ v hv
  have hRound : ∀ t, Q t →
      Ensures (monitorRound conf (recorded outside) myHostname) t (fun _ => Q) (fun _ => E) := by
    intro t ht
    unfold monitorRound
    rw [ensures_bind]
    refine ensures_mono ends_checkHbLine (fun ret u h => ?_)
      (fun _ u h => hRaise u (hRuns t u h ht))
    have hu := hRuns t u h ht
    split
    · rw [ensures_bind]
      exact ensures_mono (hSleep _ u hu) (fun _ v hv => hCluster v hv) (fun _ _ h => h)
    · split
      · exact hSleep _ u hu
      · exact hCluster u hu
  induction n generalizing s with
  | zero => exact hStart
  | succ n ih =>
    unfold monitorRounds
    rw [ensures_bind, ensures_get]
    split
    · rw [ensures_bind]
      exact ensures_mono (hRound s hStart) (fun _ t ht => ih ht) (fun _ _ h => h)
    · exact hStart

/-- What the loop keeps holds after any number of rounds, and what a check leaves that raises holds
if an exception has ended the loop. -/
theorem ends_monitorHosts (hRuns : ∀ t u, Runs t u → Q t → Q u) (hRaise : ∀ t, Q t → E t)
    (hPoll : ∀ t, Q t → SeenStable myHostname t.log →
      Ensures (checkHostStatusByCibadmin conf (recorded outside) myHostname) t (fun _ => Q)
        (fun _ => E)) (rounds : Nat) (hStart : Q s) :
    Ensures (monitorHosts conf (recorded outside) myHostname rounds) s
      (fun a t => Q t ∨ (∃ e, a = .raised e) ∧ E t) (fun _ _ => False) := by
  unfold monitorHosts
  rw [ensures_tryCatch, ensures_bind, ensures_modify]
  have hSet : Runs s { s with outside := (recorded outside).setRunning s.outside } :=
    ⟨⟨rfl, rfl⟩, [], (List.append_nil _).symm, fun _ hMem => absurd hMem List.not_mem_nil⟩
  exact ensures_mono (ensures_monitorRounds hRuns hRaise hPoll rounds (hRuns s _ hSet hStart))
    (fun _ _ ht => Or.inl ht) (fun e _ ht => Or.inr ⟨⟨e, rfl⟩, ht⟩)

/-- After any number of rounds, every notification rests on a poll that shows the host in the status
of the event, that was made right after the own host was seen to be stable, and after which there
was none before the notification; a `host_status` of `NORMAL` of a stopped host stands for an answer
of `ipmitool`. -/
theorem monitorHosts_grounded (conf : LoopConf) (outside : LoopOutside ω) (myHostname : String)
    (w : ω) (rounds : Nat) :
    ∃ a t, (monitorHosts conf (recorded outside) myHostname rounds).run
        (HandleHost.init (w, [])) = .ok a t ∧
      Along (Grounded conf.toHostConf outside myHostname) t.log := by
  apply exists_run_of_ensures
  refine ensures_mono (ends_monitorHosts
    (Q := fun t => Along (Grounded conf.toHostConf outside myHostname) t.log)
    (E := fun t => Along (Grounded conf.toHostConf outside myHostname) t.log) ?_ ?_ ?_ rounds ?_)
    (fun _ _ h => h.elim id And.right) (fun _ _ hNot => hNot)
  · exact fun t u h hAlong => along_runs h hAlong
  · exact fun _ h => h
  · intro s hAlong hStable
    have hAdd : ∀ (t : HandleHost (ω × List Act)) (r : Execution),
        t.log = s.log ++ [.ran cibadminQuery r] →
          Along (Grounded conf.toHostConf outside myHostname) t.log := by
      intro t r hLog
      rw [hLog, along_append_singleton]
      exact ⟨hAlong, trivial⟩
    apply ensures_checkHostStatusByCibadmin
    · exact fun t r hLog _ _ => ⟨hAdd t r hLog, hAdd t r hLog⟩
    · intro t r p hLog _ hPoll
      have hView : Viewing outside myHostname p t.log :=
        ⟨s.log, r, [], hLog, hStable, hPoll, fun _ _ hMem => absurd hMem List.not_mem_nil⟩
      exact ends_mono ends_checkIfStatusChanged fun u h => h.2 hView (hAdd t r hLog)
  · exact along_nil

end Rounds

/-! ## The events of a host -/

/-- The types of the events that were handed over for a host. -/
def handedOf {ω : Type} (host : Option String) (s : HandleHost ω) : List String :=
  eventsOf host (s.handed.map fun e => (e.hostname, e.event))

section Follow

variable {ω : Type} {outside : LoopOutside ω} {conf : LoopConf} {myHostname : String}
  {host : Option String} {w : ω}

theorem handedOf_handsOver {s t : HandleHost ω} {events : List (Option String × String)}
    (h : HandsOver s t events) : handedOf host t = handedOf host s ++ eventsOf host events := by
  obtain ⟨new, hNew, rfl⟩ := h
  unfold handedOf eventsOf
  rw [hNew, List.map_append, List.filter_append, List.map_append]

theorem handedOf_follows {s t : HandleHost ω} {statuses : List (Option String)}
    (h : Follows host s t statuses) :
    handedOf host t = handedOf host s ++ announced (s.getHostStatus host) statuses := by
  obtain ⟨events, hHands, hEvents⟩ := h.handed
  rw [handedOf_handsOver hHands, hEvents]

theorem follows_same {s t u : HandleHost ω} {statuses : List (Option String)}
    (h : Follows host s t statuses) (hSame : Same t u) : Follows host s u statuses := by
  have hAfter : Follows host t u [] := by
    refine ⟨⟨[], handsOver_of_same hSame, rfl⟩, ?_⟩
    show (u.hostStatus host).join = (t.hostStatus host).join
    rw [hSame.2]
  have hBoth := follows_append h hAfter
  rwa [List.append_nil] at hBoth

/-- A tag gives rise to what its status does for its host, and to nothing for another one. -/
theorem eventsOf_tagEvents {s : HandleHost ω} (tag : Element) (hHost : host ≠ some myHostname) :
    eventsOf host (tagEvents myHostname s tag) =
      announced (s.getHostStatus host) (statusesOf host [tag]) := by
  unfold tagEvents
  by_cases hSame : tag.get "uname" = host
  · have hStatuses : statusesOf host [tag] = [tag.get "crmd"] := by simp [statusesOf, hSame]
    rw [if_neg (hSame ▸ hHost), eventsOf_map, if_pos hSame, hStatuses, hSame, announced, announced,
      List.append_nil]
  · have hStatuses : statusesOf host [tag] = [] := by simp [statusesOf, hSame]
    rw [hStatuses]
    split
    · rfl
    · rw [eventsOf_map, if_neg hSame]
      rfl

/-- A check that raises has handed over a first part of what the tags give rise to. -/
theorem ensures_checkIfStatusChanged_host {s : HandleHost ω} {outside : Outside ω}
    {conf : HostConf} (p : Poll) (hHost : host ≠ some myHostname) :
    Ensures (checkIfStatusChanged conf outside myHostname p) s
      (fun _ t => Follows host s t (statusesOf host p.nodeStateTagList))
      (fun _ t => handedOf host t <+: handedOf host s ++
          announced (s.getHostStatus host) (statusesOf host p.nodeStateTagList) ∧
        ¬ (p.Complete conf ∧ NotifierReturns outside)) := by
  refine ensures_forM_split (fun passed t => Follows host s t (statusesOf host passed))
    (follows_refl host s) fun passed tag rest hSplit t hPassed => ?_
  have hStatuses : statusesOf host (passed ++ [tag]) =
      statusesOf host passed ++ statusesOf host [tag] := by
    simp only [statusesOf, List.filter_append, List.map_append]
  have hTag : tag ∈ p.nodeStateTagList := hSplit ▸ List.mem_append_right _ List.mem_cons_self
  refine ensures_mono (ensures_and.mpr
    ⟨ensures_checkTag_host p.cib tag hHost, ensures_checkTag⟩) (fun _ u hAfter => ?_)
    (fun _ u hAfter => ?_)
  · rw [hStatuses]
    exact follows_append hPassed hAfter.1
  · refine ⟨?_, fun h => hAfter.1 ⟨h.1 tag hTag, h.2⟩⟩
    have hTags : statusesOf host p.nodeStateTagList =
        statusesOf host passed ++ (statusesOf host [tag] ++ statusesOf host rest) := by
      rw [hSplit, show passed ++ tag :: rest = passed ++ ([tag] ++ rest) from rfl]
      simp only [statusesOf, List.filter_append, List.map_append]
    rw [hTags, announced_append, announced_append, ← List.append_assoc, ← List.append_assoc,
      ← handedOf_follows hPassed, ← hPassed.status]
    rcases hAfter.2.1 with hNone | hEvents
    · rw [handedOf_handsOver hNone, List.append_assoc]
      exact (List.prefix_append_right_inj _).mpr (List.nil_prefix)
    · rw [handedOf_handsOver hEvents, eventsOf_tagEvents tag hHost]
      exact List.prefix_append _ _

/-- In the check of the last poll parameters of an agent are missing, or the notifier may raise. -/
def LastMayRaise (conf : HostConf) (outside : LoopOutside ω) (log : List Act) : Prop :=
  ∃ p, (pollsOf outside log).getLast? = some p ∧
    ¬ (p.Complete conf ∧ NotifierReturns outside.toOutside)

/-- What was handed over for the host is a first part of what the polls of the log announce of it;
and all of it, unless an exception has ended the loop in the check of the last poll. -/
def Announces (conf : HostConf) (outside : LoopOutside ω) (host : Option String) (a : LoopEnd)
    (t : HandleHost (ω × List Act)) : Prop :=
  handedOf host t <+: announced none (seen host (pollsOf outside t.log)) ∧
    (handedOf host t = announced none (seen host (pollsOf outside t.log)) ∨
      (∃ e, a = .raised e) ∧ LastMayRaise conf outside t.log)

/-- The host was followed through all polls of the log. -/
def Tracks (outside : LoopOutside ω) (w : ω) (host : Option String)
    (t : HandleHost (ω × List Act)) : Prop :=
  Follows host (HandleHost.init (w, [])) t (seen host (pollsOf outside t.log))

theorem handedOf_tracks {t : HandleHost (ω × List Act)} {polls : List Poll}
    (h : Follows host (HandleHost.init (w, [])) t (seen host polls)) :
    handedOf host t = announced none (seen host polls) := by
  rw [handedOf_follows h]
  rfl

theorem announces_of_tracks {a : LoopEnd} {t : HandleHost (ω × List Act)}
    (h : Tracks outside w host t) : Announces conf.toHostConf outside host a t :=
  ⟨handedOf_tracks h ▸ List.prefix_refl _, Or.inl (handedOf_tracks h)⟩

/-- What a check that raises leaves. -/
def Interrupted (conf : HostConf) (outside : LoopOutside ω) (host : Option String)
    (t : HandleHost (ω × List Act)) : Prop :=
  handedOf host t <+: announced none (seen host (pollsOf outside t.log)) ∧
    (handedOf host t = announced none (seen host (pollsOf outside t.log)) ∨
      LastMayRaise conf outside t.log)

theorem interrupted_of_tracks {t : HandleHost (ω × List Act)} (h : Tracks outside w host t) :
    Interrupted conf.toHostConf outside host t :=
  ⟨handedOf_tracks h ▸ List.prefix_refl _, Or.inl (handedOf_tracks h)⟩

theorem tracks_runs {t u : HandleHost (ω × List Act)} (hRuns : Runs t u)
    (h : Tracks outside w host t) : Tracks outside w host u := by
  obtain ⟨acts, hLog, hActs⟩ := runs_noPoll hRuns
  unfold Tracks
  rw [hLog, pollsOf_append, pollsOf_noPoll hActs, List.append_nil]
  exact follows_same h hRuns.1

/-- The check of one more poll. -/
theorem ensures_poll_tracks {s t : HandleHost (ω × List Act)} {r : Execution} {p : Poll}
    (hHost : host ≠ some myHostname) (h : Tracks outside w host s) (hSame : Same s t)
    (hLog : t.log = s.log ++ [.ran cibadminQuery r]) (hPoll : pollOfResult outside r = some p) :
    Ensures (checkIfStatusChanged conf.toHostConf (recorded outside).toOutside myHostname p) t
      (fun _ => Tracks outside w host)
      (fun _ => Interrupted conf.toHostConf outside host) := by
  have hBefore : Follows host (HandleHost.init (w, [])) t (seen host (pollsOf outside s.log)) :=
    follows_same h hSame
  have hPolls : ∀ u : HandleHost (ω × List Act), Unpolled t u →
      pollsOf outside u.log = pollsOf outside s.log ++ [p] := by
    rintro u ⟨acts, hMore, hActs⟩
    rw [hMore, pollsOf_append, pollsOf_noPoll hActs, List.append_nil, hLog, pollsOf_append]
    simp [pollsOf, pollOfAct, hPoll]
  have hSeen : seen host (pollsOf outside s.log ++ [p]) =
      seen host (pollsOf outside s.log) ++ statusesOf host p.nodeStateTagList := by
    simp [seen]
  refine ensures_mono (ensures_and.mpr
    ⟨ensures_checkIfStatusChanged_host p hHost, ends_checkIfStatusChanged⟩)
    (fun _ u hAfter => ?_) (fun _ u hAfter => ?_)
  · unfold Tracks
    rw [hPolls u hAfter.2.1, hSeen]
    exact follows_append hBefore hAfter.1
  · obtain ⟨⟨hPrefix, hRaise⟩, hUnpolled, -⟩ := hAfter
    unfold Interrupted LastMayRaise
    rw [hPolls u hUnpolled, hSeen]
    refine ⟨?_, Or.inr ⟨p, List.getLast?_concat, fun hBoth => hRaise ⟨hBoth.1, ?_⟩⟩⟩
    · rw [handedOf_tracks hBefore, hBefore.status] at hPrefix
      rw [announced_append]
      exact hPrefix
    · exact fun retryMax interval event v => hBoth.2 retryMax interval event v.1

/-- After any number of rounds each other host is announced as the polls of the log show it. -/
theorem monitorHosts_follows (conf : LoopConf) (outside : LoopOutside ω) (myHostname : String)
    (w : ω) (rounds : Nat) (hHost : host ≠ some myHostname) :
    ∃ a t, (monitorHosts conf (recorded outside) myHostname rounds).run
        (HandleHost.init (w, [])) = .ok a t ∧ Announces conf.toHostConf outside host a t := by
  apply exists_run_of_ensures
  refine ensures_mono (ends_monitorHosts (Q := Tracks outside w host)
    (E := Interrupted conf.toHostConf outside host) ?_ ?_ ?_ rounds ?_)
    (fun a t h => ?_) (fun _ _ hNot => hNot)
  · exact fun t u hRuns h => tracks_runs hRuns h
  · exact fun t h => interrupted_of_tracks h
  · intro s h _
    apply ensures_checkHostStatusByCibadmin
    · -- No poll comes out of the execution.
      intro t r hLog hSame hNone
      have hPolls : pollsOf outside t.log = pollsOf outside s.log := by
        rw [hLog, pollsOf_append]
        simp [pollsOf, pollOfAct, hNone]
      have hAfter : Tracks outside w host t := by
        unfold Tracks
        rw [hPolls]
        exact follows_same h hSame
      exact ⟨hAfter, interrupted_of_tracks hAfter⟩
    · exact fun t r p hLog hSame hPoll => ensures_poll_tracks hHost h hSame hLog hPoll
  · exact follows_refl host _
  · rcases h with hTracks | ⟨hRaised, hPrefix, hEnd⟩
    · exact announces_of_tracks hTracks
    · exact ⟨hPrefix, hEnd.imp_right fun hMay => ⟨hRaised, hMay⟩⟩

end Follow

/-! ## A host that goes offline -/

/-- A cluster with one host. -/
def clusterCib (status : String) : Element :=
  ⟨"cib", [("have-quorum", "1")], [⟨"status", [],
    [⟨"node_state", [("uname", "host1"), ("crmd", status)], []⟩]⟩]⟩

/-- A `pacemaker_remote` node, where the first poll shows the host online and the others show it
offline. -/
def goesOffline : LoopOutside Nat where
  execute command n :=
    if command = cibadminQuery then (.returned (if n = 0 then "online" else "offline") "", n + 1)
    else if command = statusCommand "pacemaker_remote" then (.returned "active" "", n)
    else (.raised, n)
  utcnow n := (0, n)
  sendNotification _ _ _ n := (none, n)
  sleep _ n := n
  setRunning n := n
  running _ := true
  fromstring text := some (clusterCib text)

def noIpmiLoop : LoopConf := ⟨noIpmi, none, none, 5, 30, 60⟩

theorem monitorHosts_follows_offline : ∃ a t,
    (monitorHosts noIpmiLoop (recorded goesOffline) "monitor" 3).run (HandleHost.init (0, [])) =
      .ok a t ∧ Announces noIpmiLoop.toHostConf goesOffline (some "host1") a t :=
  monitorHosts_follows noIpmiLoop goesOffline "monitor" 0 3 (by decide)

end MasakariHA.Monitors
