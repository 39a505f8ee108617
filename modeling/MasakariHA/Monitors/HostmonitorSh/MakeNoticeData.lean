import MasakariHA.Lib.Matcher
import MasakariHA.Lib.Shell

/-!
# The notification of `hostmonitor.sh`

`make_notice_data`: the physical host of a node, and for a node that has stopped what `ipmitool`
says of its power. The cluster resource manager and `ipmitool` are outside (`Outside`).

* `pickAgent`, `checkPower`: the loop over the agents, and the one over the retries;
* `makeNoticeData`: the function, with the executions of `ipmitool` that it makes;
* `physicalHost_eq`: whose name the location rules give;
* `Trustworthy`, `trustworthy_iff`: when the status of the host can be relied on.
-/

namespace MasakariHA.Monitors.HostmonitorSh

open Lib Lib.Shell

/-! ## The function -/

/-- What the commands answer. -/
structure Outside where
  globbing : Globbing
  patterns : Patterns
  /-- The rules of `crm configure show` that `grep` leaves for the node. -/
  rules : Text
  /-- `IPMI_RAS`: the agents of the class `stonith:external/ipmi`. -/
  ipmiRas : List Text
  /-- `crm resource param AGENT show NAME`. -/
  param : Text → String → Text
  /-- The exit code and the output of `ipmitool`, one execution after the other. -/
  ipmitool : Nat → Nat × Text

/-- What the script has been configured with, and what it has left in `IPMI_RA` before. -/
structure Settings where
  stonithType : String
  ipmiRetryMax : Int
  ipmiRa : Text

/-- An execution of `ipmitool`. -/
structure Execution where
  count : Nat
  userid : Text
  passwd : Text
  interface : Text
  ipaddr : Text

inductive HostStatus where
  | normal
  | unknown
  deriving DecidableEq, Repr

def HostStatus.value : HostStatus → String
  | .normal => "NORMAL"
  | .unknown => "UNKNOWN"

structure NoticeData where
  event : String
  pHost : Text
  clusterStatus : String
  hostStatus : HostStatus
  executions : List Execution

/-- `PAYLOAD`. -/
def NoticeData.payload (notice : NoticeData) : String :=
  "\x7b\"event\": \"" ++ notice.event ++ "\",\"host_status\": \"" ++ notice.hostStatus.value ++
    "\",\"cluster_status\": \"" ++ notice.clusterStatus ++ "\"\x7d"

section Function

variable (o : Outside) (conf : Settings)

/-- `P_HOST`. -/
def physicalHost (node : Text) : Text :=
  let pHost := ((words (echo (o.globbing.split o.rules)))[5]?).getD []
  let pHost := if conf.stonithType = "ssh" then node else pHost
  if pHost = [] then "UnknownPhysicalHost".toList else pHost

/-- The loop over the agents: what `IPMI_RA` is after it. -/
def pickAgent (pHost : Text) : List Text → Text → Text
  | [], ipmiRa => ipmiRa
  | ra :: ras, _ =>
    if o.patterns.test (o.param ra "hostname") pHost then ra else pickAgent pHost ras ra

/-- `ipmitool` has been executed, and says that the power is off. -/
def saysPowerIsOff (count : Nat) : Bool :=
  (o.ipmitool count).1 = 0 &&
    Matcher.occurs (Matcher.lit "Power is off".toList)
      (echo (o.globbing.split (o.ipmitool count).2))

def execution (ipmiRa : Text) (count : Nat) : Execution :=
  ⟨count, o.param ipmiRa "userid", o.param ipmiRa "passwd", o.param ipmiRa "interface",
    o.param ipmiRa "ipaddr"⟩

/-- The loop over the retries, of which so many are left: `LOOP_COUNT` after it, and what was
executed. -/
def checkPower (ipmiRa : Text) : Nat → Nat → Nat × List Execution
  | 0, loopCount => (loopCount, [])
  | left + 1, loopCount =>
    let executed := execution o ipmiRa loopCount
    if saysPowerIsOff o loopCount then (loopCount, [executed])
    else
      let (loopCount, later) := checkPower ipmiRa left (loopCount + 1)
      (loopCount, executed :: later)

/-- `make_notice_data`. -/
def makeNoticeData (event : String) (node : Text) : NoticeData :=
  let pHost := physicalHost o conf node
  if event = "STOPPED" then
    if conf.stonithType = "ipmi" then
      let ipmiRa := pickAgent o pHost o.ipmiRas conf.ipmiRa
      let (loopCount, executions) := checkPower o ipmiRa (conf.ipmiRetryMax + 1).toNat 0
      -- all retries are used up
      let hostStatus := if (loopCount : Int) = conf.ipmiRetryMax + 1 then .unknown else .normal
      ⟨event, pHost, "OFFLINE", hostStatus, executions⟩
    else ⟨event, pHost, "OFFLINE", .normal, []⟩
  else ⟨event, pHost, "ONLINE", .normal, []⟩

end Function

/-! ## The name of the host -/

/-- A location rule as `crm configure show` prints it. -/
def locationRule (id name : Text) : Text :=
  unwords ["rule".toList, id, "100:".toList, "#uname".toList, "eq".toList, name]

section Rules

variable {o : Outside} {conf : Settings} {id name : Text} {lines : List Text}

theorem words_locationRule (hId : id ≠ [] ∧ ∀ c ∈ id, blank c = false)
    (hName : name ≠ [] ∧ ∀ c ∈ name, blank c = false) : words (locationRule id name) =
      ["rule".toList, id, "100:".toList, "#uname".toList, "eq".toList, name] := by
  have hAll : ∀ w ∈ ["rule".toList, id, "100:".toList, "#uname".toList, "eq".toList, name],
      w ≠ [] ∧ ∀ c ∈ w, blank c = false := by
    simp only [List.forall_mem_cons]
    exact ⟨⟨by decide, none_of_any rfl⟩, hId, ⟨by decide, none_of_any rfl⟩,
      ⟨by decide, none_of_any rfl⟩, ⟨by decide, none_of_any rfl⟩, hName, List.forall_mem_nil _⟩
  exact words_unwords (fun w hw => (hAll w hw).1) fun w hw => (hAll w hw).2

/-- Unless the type is `ssh`, the host is named as the first location rule of the node writes it. -/
theorem physicalHost_eq (hType : conf.stonithType ≠ "ssh")
    (hRules : o.rules = substitution (locationRule id name :: lines))
    (hId : id ≠ [] ∧ ∀ c ∈ id, blank c = false)
    (hName : name ≠ [] ∧ ∀ c ∈ name, blank c = false)
    (hPlain : ∀ w ∈ words o.rules, ∀ c ∈ w, patternSign c = false) (node : Text) :
    physicalHost o conf node = name := by
  have hWords : words o.rules = ["rule".toList, id, "100:".toList, "#uname".toList, "eq".toList,
      name] ++ lines.flatMap words := by
    rw [hRules, words_substitution, List.flatMap_cons, words_locationRule hId hName]
  have hEcho : echo (words o.rules) = unwords (words o.rules) := by
    rw [hWords]
    rfl
  have hAgain : words (unwords (words o.rules)) = words o.rules :=
    words_unwords (fun _ => ne_nil_of_mem_words) fun _ hw _ => blank_of_mem_words hw
  unfold physicalHost
  dsimp only
  rw [o.globbing.split_eq hPlain, hEcho, hAgain, hWords, if_neg hType]
  exact if_neg hName.1

end Rules

/-! ## The status of a stopped host -/

/-- A host that has stopped, in a cluster whose nodes are powered off by `ipmitool`. -/
structure Stopped where
  o : Outside
  conf : Settings
  node : Text
  ipmi : conf.stonithType = "ipmi"
  /-- The name of the host is no pattern. -/
  noPattern : ∀ c ∈ physicalHost o conf node, patternSign c = false

namespace Stopped

variable (s : Stopped)

def pHost : Text := physicalHost s.o s.conf s.node

def notice : NoticeData := makeNoticeData s.o s.conf "STOPPED" s.node

/-- The agent is registered for the host. -/
def IsRegistered (ra : Text) : Prop := ra ∈ s.o.ipmiRas ∧ s.o.param ra "hostname" = s.pHost

/-- The status is `NORMAL` only if one of the allowed executions says that the power is off and was
made with the parameters of an agent of the host, and `UNKNOWN` if the host has no agent. -/
structure Trustworthy : Prop where
  normal : s.notice.hostStatus = .normal → ∃ executed ∈ s.notice.executions,
    (executed.count : Int) < s.conf.ipmiRetryMax + 1 ∧ saysPowerIsOff s.o executed.count = true ∧
      ∃ ra, s.IsRegistered ra ∧ executed = execution s.o ra executed.count
  unregistered : (∀ ra, ¬ s.IsRegistered ra) → s.notice.hostStatus = .unknown

end Stopped

/-! ## When it can be relied on -/

section Loops

variable {o : Outside} {ipmiRa pHost : Text}

/-- The loop ends in the first round that finds the power off, or after the last one. -/
theorem checkPower_cases (o : Outside) (ipmiRa : Text) (left loopCount : Nat) :
    (∃ k, loopCount ≤ k ∧ k < loopCount + left ∧ saysPowerIsOff o k = true ∧
        (checkPower o ipmiRa left loopCount).1 = k ∧
        execution o ipmiRa k ∈ (checkPower o ipmiRa left loopCount).2) ∨
      (∀ k, loopCount ≤ k → k < loopCount + left → saysPowerIsOff o k = false) ∧
        (checkPower o ipmiRa left loopCount).1 = loopCount + left := by
  induction left generalizing loopCount with
  | zero =>
    refine Or.inr ⟨fun k hFrom hTo => ?_, rfl⟩
    exact absurd hTo (Nat.not_lt_of_le hFrom)
  | succ left ih =>
    rw [checkPower]
    by_cases hOff : saysPowerIsOff o loopCount = true
    · rw [if_pos hOff]
      exact Or.inl ⟨loopCount, le_rfl, by omega, hOff, rfl, List.mem_cons_self⟩
    · rw [if_neg hOff]
      rcases ih (loopCount + 1) with ⟨k, hFrom, hTo, hk, hCount, hMem⟩ | ⟨hNever, hCount⟩
      · exact Or.inl ⟨k, by omega, by omega, hk, hCount, List.mem_cons_of_mem _ hMem⟩
      · refine Or.inr ⟨fun k hFrom hTo => ?_, by rw [hCount]; omega⟩
        rcases Nat.eq_or_lt_of_le hFrom with rfl | hLater
        · simpa using hOff
        · exact hNever k hLater (by omega)

/-- If an agent of the host is met, the loop ends with one. -/
theorem pickAgent_spec (hPlain : ∀ c ∈ pHost, patternSign c = false) {ras : List Text}
    (h : ∃ ra ∈ ras, o.param ra "hostname" = pHost) (ipmiRa : Text) :
    pickAgent o pHost ras ipmiRa ∈ ras ∧
      o.param (pickAgent o pHost ras ipmiRa) "hostname" = pHost := by
  induction ras generalizing ipmiRa with
  | nil =>
    obtain ⟨ra, hMem, -⟩ := h
    cases hMem
  | cons ra ras ih =>
    rw [pickAgent]
    have hTest := o.patterns.test_plain (o.param ra "hostname") pHost hPlain
    by_cases hHost : o.patterns.test (o.param ra "hostname") pHost = true
    · rw [if_pos hHost]
      exact ⟨List.mem_cons_self, hTest.mp hHost⟩
    · rw [if_neg hHost]
      obtain ⟨found, hMem, hFound⟩ := h
      have hLater : found ∈ ras := by
        refine (List.mem_cons.mp hMem).resolve_left ?_
        rintro rfl
        exact hHost (hTest.mpr hFound)
      obtain ⟨hPicked, hName⟩ := ih ⟨found, hLater, hFound⟩ ra
      exact ⟨List.mem_cons_of_mem ra hPicked, hName⟩

end Loops

namespace Stopped

variable {s : Stopped}

def picked (s : Stopped) : Text := pickAgent s.o s.pHost s.o.ipmiRas s.conf.ipmiRa

def checked (s : Stopped) : Nat × List Execution :=
  checkPower s.o s.picked (s.conf.ipmiRetryMax + 1).toNat 0

theorem notice_eq (s : Stopped) : s.notice = ⟨"STOPPED", s.pHost, "OFFLINE",
    if (s.checked.1 : Int) = s.conf.ipmiRetryMax + 1 then .unknown else .normal,
    s.checked.2⟩ := by
  unfold notice makeNoticeData
  rw [if_pos rfl, if_pos s.ipmi]
  rfl

theorem hostStatus_eq_unknown :
    s.notice.hostStatus = .unknown ↔ (s.checked.1 : Int) = s.conf.ipmiRetryMax + 1 := by
  rw [notice_eq]
  dsimp only
  split <;> simp_all

/-- An allowed execution that says that the power is off makes the status `NORMAL`, and only such
a one. -/
theorem checked_cases (hMax : -1 ≤ s.conf.ipmiRetryMax) :
    (s.notice.hostStatus = .normal ∧ ∃ k : Nat, (k : Int) < s.conf.ipmiRetryMax + 1 ∧
        saysPowerIsOff s.o k = true ∧ execution s.o s.picked k ∈ s.notice.executions) ∨
      s.notice.hostStatus = .unknown ∧
        ∀ k : Nat, (k : Int) < s.conf.ipmiRetryMax + 1 → saysPowerIsOff s.o k = false := by
  rcases checkPower_cases s.o s.picked (s.conf.ipmiRetryMax + 1).toNat 0 with
    ⟨k, -, hTo, hOff, hCount, hMem⟩ | ⟨hNever, hCount⟩
  · refine Or.inl ⟨?_, k, by omega, hOff, ?_⟩
    · rw [notice_eq]
      refine if_neg ?_
      change ¬ ((checkPower s.o s.picked (s.conf.ipmiRetryMax + 1).toNat 0).1 : Int) = _
      rw [hCount]
      omega
    · rw [notice_eq]
      exact hMem
  · refine Or.inr ⟨hostStatus_eq_unknown.mpr ?_, fun k hk => hNever k (Nat.zero_le k) (by omega)⟩
    change ((checkPower s.o s.picked (s.conf.ipmiRetryMax + 1).toNat 0).1 : Int) = _
    rw [hCount]
    omega

/-- The status can be relied on exactly if `IPMI_RETRY_MAX` is not below -1, and either no allowed
execution says that the power is off, or an agent is registered for the host. -/
theorem trustworthy_iff (s : Stopped) : s.Trustworthy ↔ -1 ≤ s.conf.ipmiRetryMax ∧
    ((∀ k : Nat, (k : Int) < s.conf.ipmiRetryMax + 1 → saysPowerIsOff s.o k = false) ∨
      ∃ ra, s.IsRegistered ra) := by
  constructor
  · intro h
    have hMax : -1 ≤ s.conf.ipmiRetryMax := by
      by_contra hLess
      have hNormal : s.notice.hostStatus = .normal := by
        rw [notice_eq]
        exact if_neg (by omega)
      obtain ⟨executed, -, hAllowed, -⟩ := h.normal hNormal
      omega
    refine ⟨hMax, ?_⟩
    by_contra hWrong
    obtain ⟨hOff, hNone⟩ := not_or.mp hWrong
    rcases checked_cases hMax with ⟨hNormal, -⟩ | ⟨-, hNever⟩
    · rw [h.unregistered (not_exists.mp hNone)] at hNormal
      cases hNormal
    · exact hOff hNever
  · rintro ⟨hMax, hCond⟩
    rcases checked_cases hMax with ⟨hNormal, k, hAllowed, hOff, hMem⟩ | ⟨hUnknown, -⟩
    · have hSome : ∃ ra, s.IsRegistered ra := by
        refine hCond.resolve_left fun hNever => ?_
        rw [hNever k hAllowed] at hOff
        cases hOff
      obtain ⟨ra, hRa⟩ := hSome
      have hPicked := pickAgent_spec s.noPattern ⟨ra, hRa⟩ s.conf.ipmiRa
      exact ⟨fun _ => ⟨_, hMem, hAllowed, hOff, s.picked, hPicked, rfl⟩,
        fun hNone => absurd hRa (hNone ra)⟩
    · refine ⟨fun hNormal => ?_, fun _ => hUnknown⟩
      rw [hUnknown] at hNormal
      cases hNormal

end Stopped

/-! ## A host without an agent -/

/-- One agent, of another host than the one that has stopped; its power is off. -/
def otherHost : Stopped where
  o :=
    { globbing := noFiles
      patterns := equality
      rules := "rule loc-1 100: #uname eq compute2".toList
      ipmiRas := ["stonith-1".toList]
      param := fun _ name => if name = "hostname" then "compute1".toList else []
      ipmitool := fun _ => (0, "Chassis Power is off".toList) }
  conf := ⟨"ipmi", 3, []⟩
  node := "compute2".toList
  ipmi := rfl
  noPattern := none_of_any (by decide)

/-- Whatever the agents and the answers of `ipmitool`, the status can be relied on. -/
def AlwaysTrustworthy : Prop := ∀ s : Stopped, s.Trustworthy

/-- The status of `compute2` is read off the power of `compute1`. -/
theorem not_alwaysTrustworthy : ¬ AlwaysTrustworthy := by
  intro h
  have hNone : ∀ ra, ¬ otherHost.IsRegistered ra := by
    rintro ra ⟨-, hHost⟩
    have hName : "compute1".toList = otherHost.pHost := hHost
    revert hName
    decide
  have hUnknown := (h otherHost).unregistered hNone
  revert hUnknown
  decide

end MasakariHA.Monitors.HostmonitorSh
