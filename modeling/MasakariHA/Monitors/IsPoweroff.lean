import MasakariHA.Monitors.HandleHost

/-!
# The power state of a host

`HandleHost._is_poweroff`: `ipmitool` is executed with the parameters of the host's agent until
it says that the power is off, at most `ipmi_retry_max + 1` times.

* `scripted`: an outside that answers `ipmitool` with a sequence of outcomes, and counts;
* `powerStatus_spec`: the loop;
* `decidesPoweroff_iff`: when the answer is a `bool`.
-/

namespace MasakariHA.Monitors

open Lib

/-- The outcomes of `ipmitool` one after the other; the state is the number of those gone by. -/
def scripted (outcomes : Nat → Execution) : Outside Nat where
  execute _ n := (outcomes n, n + 1)
  utcnow n := (0, n)
  sendNotification _ _ _ n := (none, n)

def saysOff : Execution → Bool
  | .returned out err => err = "" && PyString.contains out "Power is off"
  | .raised => false

/-- The call returns, after at most `ipmi_retry_max + 1` executions; it returns `True` exactly
when there are parameters for the host and one of the first `ipmi_retry_max + 1` outcomes says
that the power is off. -/
def DecidesPoweroff (conf : HostConf) (cib : Element) (hostname : Option String)
    (outcomes : Nat → Execution) (s : HandleHost Nat) : Prop :=
  Ensures (isPoweroff conf (scripted outcomes) cib hostname) { s with outside := 0 }
    (fun b s' => s'.outside ≤ conf.ipmiRetryMax.toNat + 1 ∧
      (b = true ↔ (getStonithIpmiParams cib hostname).isSome = true ∧
        ∃ k ≤ conf.ipmiRetryMax.toNat, saysOff (outcomes k) = true))
    (fun _ _ => False)

section Poweroff

variable {conf : HostConf} {cib : Element} {hostname : Option String}
  {outcomes : Nat → Execution} {s : HandleHost Nat}

theorem ensures_scripted {command : List String} {Q : Execution → HandleHost Nat → Prop}
    {E : Exc → HandleHost Nat → Prop} :
    Ensures (execute (scripted outcomes) command) s Q E ↔
      Q (outcomes s.outside) { s with outside := s.outside + 1 } := Iff.rfl

/-- One round of the loop: the outcome ends it, or the next round starts. -/
theorem ensures_powerStatus_succ {command : List String} {retries : Nat}
    {Q : Bool → HandleHost Nat → Prop} {E : Exc → HandleHost Nat → Prop} :
    Ensures (powerStatus (scripted outcomes) command (retries + 1)) s Q E ↔
      if saysOff (outcomes s.outside) then Q true { s with outside := s.outside + 1 }
      else Ensures (powerStatus (scripted outcomes) command retries)
        { s with outside := s.outside + 1 } Q E := by
  rw [powerStatus, ensures_bind, ensures_scripted]
  cases outcomes s.outside with
  | raised => rfl
  | returned out err =>
    dsimp only
    by_cases hOff : err = "" ∧ PyString.contains out "Power is off" = true
    · have hSays : saysOff (.returned out err) = true := by simpa [saysOff] using hOff
      rw [if_pos hOff, if_pos hSays, ensures_pure]
    · have hSays : ¬ saysOff (.returned out err) = true := by simpa [saysOff] using hOff
      rw [if_neg hOff, if_neg hSays]

theorem powerStatus_spec (command : List String) (retries : Nat) (s : HandleHost Nat) :
    Ensures (powerStatus (scripted outcomes) command retries) s
      (fun b s' => s'.outside ≤ s.outside + retries + 1 ∧
        (b = true ↔ ∃ k ≤ retries, saysOff (outcomes (s.outside + k)) = true))
      (fun _ _ => False) := by
  induction retries generalizing s with
  | zero =>
    rw [powerStatus, ensures_bind, ensures_scripted]
    have hFirst : (∃ k ≤ 0, saysOff (outcomes (s.outside + k)) = true) ↔
        saysOff (outcomes s.outside) = true := by
      simp
    simp only [hFirst]
    cases outcomes s.outside with
    | raised => exact ⟨Nat.le_refl _, by simp [saysOff]⟩
    | returned out err => exact ⟨Nat.le_refl _, by simp [saysOff]⟩
  | succ retries ih =>
    rw [ensures_powerStatus_succ]
    split
    · rename_i hOff
      exact ⟨by dsimp only; omega, iff_of_true rfl ⟨0, Nat.zero_le _, hOff⟩⟩
    · rename_i hOn
      refine ensures_mono (ih { s with outside := s.outside + 1 }) ?_ fun _ _ h => h
      rintro b s' ⟨hCount, hTrue⟩
      refine ⟨by dsimp only at hCount; omega, hTrue.trans ?_⟩
      constructor
      · rintro ⟨k, hk, hOff⟩
        exact ⟨k + 1, Nat.succ_le_succ hk, by rwa [show s.outside + (k + 1) = s.outside + 1 + k by
          omega]⟩
      · rintro ⟨k, hk, hOff⟩
        cases k with
        | zero => exact absurd hOff hOn
        | succ k =>
          exact ⟨k, Nat.le_of_succ_le_succ hk, by rwa [show s.outside + 1 + k = s.outside + (k + 1)
            by omega]⟩

theorem ensures_ipmiParam_none {Q : String → HandleHost Nat → Prop}
    {E : Exc → HandleHost Nat → Prop} :
    Ensures (ipmiParam none) s Q E ↔ E (.other "KeyError") s := Iff.rfl

theorem ensures_ipmiParam_some {v : Option String} {Q : String → HandleHost Nat → Prop}
    {E : Exc → HandleHost Nat → Prop} :
    Ensures (ipmiParam (some v)) s Q E ↔ Q (v.getD "None") s := Iff.rfl

/-- A parameter that is missing ends the call with a `KeyError`. -/
theorem complete_of_returns {v : IpmiValues} {f : String → String → String → String →
      HostM Nat Bool} {Q : Bool → HandleHost Nat → Prop}
    (h : Ensures (do
      let userid ← ipmiParam v.userid
      let passwd ← ipmiParam v.passwd
      let interface ← ipmiParam v.interface
      let ipaddr ← ipmiParam v.ipaddr
      f userid passwd interface ipaddr) s Q fun _ _ => False) : v.Complete := by
  obtain ⟨ipaddr, userid, passwd, interface⟩ := v
  dsimp only at h
  cases userid with
  | none => exact (ensures_ipmiParam_none.mp (ensures_bind.mp h)).elim
  | some userid =>
    rw [ensures_bind, ensures_ipmiParam_some] at h
    cases passwd with
    | none => exact (ensures_ipmiParam_none.mp (ensures_bind.mp h)).elim
    | some passwd =>
      rw [ensures_bind, ensures_ipmiParam_some] at h
      cases interface with
      | none => exact (ensures_ipmiParam_none.mp (ensures_bind.mp h)).elim
      | some interface =>
        rw [ensures_bind, ensures_ipmiParam_some] at h
        cases ipaddr with
        | none => exact (ensures_ipmiParam_none.mp (ensures_bind.mp h)).elim
        | some ipaddr => exact ⟨nofun, nofun, nofun, nofun⟩

/-- The call decides exactly when no parameter of the host's agent is missing. -/
theorem decidesPoweroff_iff (conf : HostConf) (cib : Element) (hostname : Option String)
    (outcomes : Nat → Execution) (s : HandleHost Nat) :
    DecidesPoweroff conf cib hostname outcomes s ↔
      ∀ v, getStonithIpmiParams cib hostname = some v → v.Complete := by
  unfold DecidesPoweroff isPoweroff
  cases getStonithIpmiParams cib hostname with
  | none =>
    refine iff_of_true ?_ fun v hv => by cases hv
    exact ⟨Nat.zero_le _, by simp⟩
  | some v =>
    constructor
    · rintro h v' hv'
      cases hv'
      exact complete_of_returns h
    · intro h
      obtain ⟨hUserid, hPasswd, hInterface, hIpaddr⟩ := h v rfl
      obtain ⟨ipaddr, userid, passwd, interface⟩ := v
      obtain ⟨userid, rfl⟩ := Option.ne_none_iff_exists'.mp hUserid
      obtain ⟨passwd, rfl⟩ := Option.ne_none_iff_exists'.mp hPasswd
      obtain ⟨interface, rfl⟩ := Option.ne_none_iff_exists'.mp hInterface
      obtain ⟨ipaddr, rfl⟩ := Option.ne_none_iff_exists'.mp hIpaddr
      dsimp only
      rw [ensures_bind, ensures_ipmiParam_some, ensures_bind, ensures_ipmiParam_some, ensures_bind,
        ensures_ipmiParam_some, ensures_bind, ensures_ipmiParam_some]
      refine ensures_mono (powerStatus_spec _ _ _) (fun b s' hb => ?_) fun _ _ h => h
      simpa using hb

end Poweroff

/-! ## An agent without a password -/

/-- The agent of `compute1` has no `passwd`. -/
def incompleteCib : Element :=
  ⟨"cib", [], [⟨"configuration", [], [⟨"resources", [], [⟨"group", [], [
    ⟨"primitive", [("type", "external/ipmi")], [⟨"instance_attributes", [], [
      nvpair "hostname" "compute1", nvpair "ipaddr" "192.0.2.1", nvpair "userid" "admin",
      nvpair "interface" "lanplus"]⟩]⟩]⟩]⟩]⟩]⟩

/-- Whatever the document and the outcomes, the call decides. -/
def AlwaysDecidesPoweroff : Prop :=
  ∀ (conf : HostConf) (cib : Element) (hostname : String) (outcomes : Nat → Execution)
    (s : HandleHost Nat), 0 ≤ conf.ipmiRetryMax →
    DecidesPoweroff conf cib (some hostname) outcomes s

/-- For `compute1` the call raises a `KeyError`, without a single execution. -/
theorem not_alwaysDecidesPoweroff : ¬ AlwaysDecidesPoweroff := by
  intro h
  have hCall := h ⟨false, 5, 3, 12, 10⟩ incompleteCib "compute1"
    (fun _ => .returned "Chassis Power is off" "") (.init 0) (by decide)
  have hRun : (isPoweroff ⟨false, 5, 3, 12, 10⟩
      (scripted fun _ => .returned "Chassis Power is off" "") incompleteCib
      (some "compute1")).run (.init 0) = .error (.other "KeyError") (.init 0) := rfl
  unfold DecidesPoweroff Ensures at hCall
  rw [show ({ HandleHost.init 0 with outside := 0 } : HandleHost Nat) = .init 0 from rfl, hRun]
    at hCall
  exact hCall

end MasakariHA.Monitors
