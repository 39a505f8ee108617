import MasakariHA.Api.ProcessStack
import MasakariHA.Api.VersionString

/-!
# The version of a request

From the header that asks for a version to the method that is called, and to the header that the
answer carries: `set_api_version_request` and `__call__` of `api/openstack/wsgi.py`, with the
choice of `version_select` among the versions of a method.

* `Limits`: the versions that the API supports;
* `setApiVersionRequest`: the version that a request gets;
* `handle`: the answer, and the version that it names;
* `Negotiated`, `handle_negotiated`: what a header comes to;
* `handle_again`: an answer's version, asked for, gets the same method.
-/

namespace MasakariHA.Api

open Lib ProcessStack

/-! ## Versions that are asked for -/

/-- The lowest and the highest version of the API, which its constants have as texts. The default
is the lowest. -/
structure Limits where
  minVersion : APIVersionRequest
  maxVersion : APIVersionRequest
  one_le : 1 ≤ minVersion.verMajor
  min_le_max : minVersion ≤ maxVersion

/-- `_MIN_API_VERSION` and `_MAX_API_VERSION`. -/
def limits : Limits := ⟨⟨1, 0⟩, ⟨1, 0⟩, le_rfl, le_rfl⟩

namespace Limits

def minText (l : Limits) : String := s!"{l.minVersion.verMajor}.{l.minVersion.verMinor}"

def maxText (l : Limits) : String := s!"{l.maxVersion.verMajor}.{l.maxVersion.verMinor}"

end Limits

section Request

variable (d : Decimals) (l : Limits)

def minApiVersion : Except Exc APIVersionRequest := APIVersionRequest.init d (some l.minText)

def maxApiVersion : Except Exc APIVersionRequest := APIVersionRequest.init d (some l.maxText)

/-- `set_api_version_request`, on the version that `microversion_parse` finds in the headers. The
state is the attribute that it sets. -/
def setApiVersionRequest : Option String → EStateM Exc APIVersionRequest Unit
  | none => do
    let default ← MonadExcept.ofExcept (APIVersionRequest.init d (some l.minText))
    set default
  | some hdrString =>
    if hdrString = "latest" then do
      let latest ← MonadExcept.ofExcept (maxApiVersion d l)
      set latest
    else do
      let requested ← MonadExcept.ofExcept (APIVersionRequest.init d (some hdrString))
      set requested
      let minVersion ← MonadExcept.ofExcept (minApiVersion d l)
      let maxVersion ← MonadExcept.ofExcept (maxApiVersion d l)
      let supported ← MonadExcept.ofExcept (requested.versionMatches minVersion maxVersion)
      if supported then pure ()
      else do
        let reqVer ← MonadExcept.ofExcept requested.getString
        let minVer ← MonadExcept.ofExcept minVersion.getString
        let maxVer ← MonadExcept.ofExcept maxVersion.getString
        throw (Exc.raised .invalidGlobalAPIVersion (s!"Version {reqVer} is not supported by the " ++
          s!"API. Minimum is {minVer} and maximum is {maxVer}."))

/-- The value of the header `OpenStack-API-Version`, unless the version is null. -/
def versionHeader (v : APIVersionRequest) : Option String :=
  match v.getString with
  | .ok text => some ("masakari " ++ text)
  | .error _ => none

section Handle

variable {σ ρ δ : Type} (methods : List VersionedMethod)
  (function : VersionedMethod → Method σ ρ δ)

/-- `version_select`: the function with its attributes. -/
def versionedMethod (v : APIVersionRequest) : Method σ ρ δ :=
  match versionSelect v methods with
  | .ok f => function f
  | .error e => ⟨throw (.exc e), none⟩

/-- The end of a request, and the version that the answer names. -/
structure Handled (σ ρ δ : Type) where
  answer : Option (Answer ρ δ)
  state : σ
  version : Option String

/-- `__call__` for a method with versions and without extensions. -/
def handle (hdr : Option String) (s : σ) : Handled σ ρ δ :=
  match (setApiVersionRequest d l hdr).run .null with
  | .error e v =>
    if e.isA .invalidAPIVersionString then
      ⟨some (.fault ⟨400, formatMessage e⟩), s, versionHeader v⟩
    else if e.isA .invalidGlobalAPIVersion then
      ⟨some (.fault ⟨406, formatMessage e⟩), s, versionHeader v⟩
    else ⟨(faultWrapper (.exc e)).map .fault, s, versionHeader v⟩
  | .ok () v =>
    let (answer, s') := respond [] (versionedMethod methods function v) s
    ⟨answer, s', versionHeader v⟩

end Handle

end Request

/-! ## What a header comes to -/

/-- The text stands for the version. -/
def Reads (d : Decimals) (text : String) (v : APIVersionRequest) : Prop :=
  APIVersionRequest.init d (some text) = .ok v

/-- The version that a header asks for, supported or not. -/
inductive AsksFor (d : Decimals) (l : Limits) : Option String → APIVersionRequest → Prop where
  | default : AsksFor d l none l.minVersion
  | latest : AsksFor d l (some "latest") l.maxVersion
  | text {text : String} {v : APIVersionRequest} (hText : text ≠ "latest")
      (hReads : Reads d text v) : AsksFor d l (some text) v

def Limits.Supports (l : Limits) (v : APIVersionRequest) : Prop :=
  l.minVersion ≤ v ∧ v ≤ l.maxVersion

instance (l : Limits) (v : APIVersionRequest) : Decidable (l.Supports v) :=
  inferInstanceAs (Decidable (_ ∧ _))

section Negotiation

variable (d : Decimals) (l : Limits) {σ ρ δ : Type} (methods : List VersionedMethod)
  (function : VersionedMethod → Method σ ρ δ)

/-- What a header comes to: a client error, or the one method for the version. -/
inductive Negotiated (s : σ) : Option String → Handled σ ρ δ → Prop where
  | unreadable (text : String) (hText : text ≠ "latest") (hNone : ∀ v, ¬ Reads d text v)
      (explanation : Option Message) :
    Negotiated s (some text) ⟨some (.fault ⟨400, explanation⟩), s, none⟩
  | unsupported {hdr : Option String} {v : APIVersionRequest} (hAsks : AsksFor d l hdr v)
      (h : ¬ l.Supports v) (explanation : Option Message) :
    Negotiated s hdr ⟨some (.fault ⟨406, explanation⟩), s, versionHeader v⟩
  | unmatched {hdr : Option String} {v : APIVersionRequest} (hAsks : AsksFor d l hdr v)
      (h : l.Supports v) (hNone : ∀ f ∈ methods, f.isMatched v = false) :
    Negotiated s hdr ⟨some (.fault ⟨404, none⟩), s, versionHeader v⟩
  | called {hdr : Option String} {v : APIVersionRequest} (hAsks : AsksFor d l hdr v)
      (h : l.Supports v) {f : VersionedMethod} (hMem : f ∈ methods)
      (hMatched : f.isMatched v = true)
      (hOnly : ∀ g ∈ methods, g.isMatched v = true → g = f) :
    Negotiated s hdr
      ⟨(respond [] (function f) s).1, (respond [] (function f) s).2, versionHeader v⟩

end Negotiation

/-! ## The version of a request -/

section Versions

variable {d : Decimals} {l : Limits} {hdr : Option String} {v : APIVersionRequest}

theorem Limits.one_le_max (l : Limits) : 1 ≤ l.maxVersion.verMajor := by
  have hOne := l.one_le
  rcases le_iff_before.mp l.min_le_max with (hLt | hEq) | hSame
  · omega
  · omega
  · rw [← hSame]
    exact hOne

theorem minApiVersion_eq : minApiVersion d l = .ok l.minVersion :=
  init_form l.one_le (toList_form _ _)

theorem maxApiVersion_eq : maxApiVersion d l = .ok l.maxVersion :=
  init_form l.one_le_max (toList_form _ _)

/-- A version that can be asked for is not null, and has a text that is read again. -/
theorem one_le_of_asksFor (h : AsksFor d l hdr v) : 1 ≤ v.verMajor := by
  cases h with
  | default => exact l.one_le
  | latest => exact l.one_le_max
  | text hText hReads => exact one_le_verMajor hReads

theorem reads_form (h : 1 ≤ v.verMajor) : Reads d s!"{v.verMajor}.{v.verMinor}" v :=
  init_form h (toList_form _ _)

theorem versionHeader_eq (h : 1 ≤ v.verMajor) :
    versionHeader v = some ("masakari " ++ s!"{v.verMajor}.{v.verMinor}") := by
  rw [versionHeader, getString_eq h]

/-- A version against the limits. -/
theorem versionMatches_limits (h : 1 ≤ v.verMajor) :
    v.versionMatches l.minVersion l.maxVersion = .ok (decide (l.Supports v)) := by
  have hDecide : decide (l.Supports v) = (decide (l.minVersion ≤ v) && decide (v ≤ l.maxVersion)) :=
    Bool.decide_and _ _
  unfold APIVersionRequest.versionMatches
  rw [isNull_eq_false h, isNull_eq_false l.one_le, isNull_eq_false l.one_le_max, hDecide]
  rfl

/-- The text of the answer to a version that is not supported. -/
def unsupportedMessage (l : Limits) (v : APIVersionRequest) : String :=
  s!"Version {v.verMajor}.{v.verMinor} is not supported by the " ++
    s!"API. Minimum is {l.minText} and maximum is {l.maxText}."

theorem setApiVersionRequest_text {text : String} (hText : text ≠ "latest")
    (hReads : Reads d text v) :
    (setApiVersionRequest d l (some text)).run .null =
      if l.Supports v then .ok () v
      else .error (Exc.raised .invalidGlobalAPIVersion (unsupportedMessage l v)) v := by
  have hPos := one_le_verMajor hReads
  unfold setApiVersionRequest
  dsimp only
  rw [if_neg hText, hReads, minApiVersion_eq, maxApiVersion_eq]
  simp only [ofExcept_ok, pure_bind, versionMatches_limits hPos, getString_eq hPos,
    getString_eq l.one_le, getString_eq l.one_le_max]
  by_cases hSupported : l.Supports v
  · rw [if_pos hSupported, if_pos (decide_eq_true hSupported)]
    rfl
  · rw [if_neg hSupported, if_neg (by rw [decide_eq_false hSupported]; exact Bool.false_ne_true)]
    rfl

end Versions

/-! ## Answers -/

section Answers

variable {d : Decimals} {l : Limits} {hdr : Option String} {v : APIVersionRequest}
  {σ ρ δ : Type} {methods : List VersionedMethod} {function : VersionedMethod → Method σ ρ δ}
  {s : σ}

theorem asksFor_or_unreadable (d : Decimals) (l : Limits) (hdr : Option String) :
    (∃ v, AsksFor d l hdr v) ∨
      ∃ text, hdr = some text ∧ text ≠ "latest" ∧ ∀ v, ¬ Reads d text v := by
  cases hdr with
  | none => exact Or.inl ⟨_, .default⟩
  | some text =>
    by_cases hText : text = "latest"
    · subst hText
      exact Or.inl ⟨_, .latest⟩
    · by_cases hReads : ∃ v, Reads d text v
      · obtain ⟨v, hv⟩ := hReads
        exact Or.inl ⟨v, .text hText hv⟩
      · exact Or.inr ⟨text, rfl, hText, not_exists.mp hReads⟩

theorem supports_of_not_text (h : AsksFor d l hdr v) :
    l.Supports v ∨ ∃ text, hdr = some text ∧ text ≠ "latest" ∧ Reads d text v := by
  cases h with
  | default => exact Or.inl ⟨le_rfl, l.min_le_max⟩
  | latest => exact Or.inl ⟨l.min_le_max, le_rfl⟩
  | text hText hReads => exact Or.inr ⟨_, rfl, hText, hReads⟩

/-- The version that a header asks for is the request's, if it is supported. -/
theorem setApiVersionRequest_supported (hAsks : AsksFor d l hdr v) (h : l.Supports v) :
    (setApiVersionRequest d l hdr).run .null = .ok () v := by
  cases hAsks with
  | default =>
    unfold setApiVersionRequest
    dsimp only
    rw [show APIVersionRequest.init d (some l.minText) = .ok l.minVersion from minApiVersion_eq]
    rfl
  | latest =>
    unfold setApiVersionRequest
    dsimp only
    rw [if_pos rfl, maxApiVersion_eq]
    rfl
  | text hText hReads => rw [setApiVersionRequest_text hText hReads, if_pos h]

theorem handle_supported (hAsks : AsksFor d l hdr v) (h : l.Supports v) :
    handle d l methods function hdr s =
      ⟨(respond [] (versionedMethod methods function v) s).1,
        (respond [] (versionedMethod methods function v) s).2, versionHeader v⟩ := by
  unfold handle
  rw [setApiVersionRequest_supported hAsks h]

theorem handle_unsupported {text : String} (hText : text ≠ "latest") (hReads : Reads d text v)
    (h : ¬ l.Supports v) : handle d l methods function (some text) s =
      ⟨some (.fault ⟨406, some (.text (unsupportedMessage l v))⟩), s, versionHeader v⟩ := by
  unfold handle
  rw [setApiVersionRequest_text hText hReads, if_neg h]
  rfl

theorem init_error {text : String} {e : Exc} (h : APIVersionRequest.init d (some text) = .error e) :
    ∃ message, e = .masakari .invalidAPIVersionString message := by
  rw [APIVersionRequest.init] at h
  split at h
  · cases h
  · exact ⟨_, (Except.error.inj h).symm⟩

theorem handle_unreadable {text : String} (hText : text ≠ "latest")
    (hNone : ∀ v, ¬ Reads d text v) : ∃ explanation,
      handle d l methods function (some text) s =
        ⟨some (.fault ⟨400, explanation⟩), s, none⟩ := by
  unfold handle setApiVersionRequest
  dsimp only
  rw [if_neg hText]
  cases hInit : APIVersionRequest.init d (some text) with
  | ok v => exact absurd hInit (hNone v)
  | error e =>
    obtain ⟨message, rfl⟩ := init_error hInit
    exact ⟨some message, rfl⟩

/-- No method is found for a version only if none matches. -/
theorem versionSelect_error (hPos : 1 ≤ v.verMajor) {e : Exc}
    (h : versionSelect v methods = .error e) : (∀ f ∈ methods, f.isMatched v = false) ∧
      ∃ message, e = .masakari .versionNotFoundForAPIMethod message := by
  induction methods with
  | nil =>
    rw [versionSelect] at h
    exact ⟨List.forall_mem_nil _, _, (Except.error.inj h).symm⟩
  | cons f methods ih =>
    rw [versionSelect] at h
    cases hMatches : v.versionMatches f.startVersion f.endVersion with
    | error e' =>
      have hNull := APIVersionRequest.isNull_of_error hMatches
      rw [isNull_eq_false hPos] at hNull
      cases hNull
    | ok b =>
      rw [hMatches] at h
      cases b with
      | true => cases h
      | false =>
        obtain ⟨hNone, hMessage⟩ := ih h
        refine ⟨List.forall_mem_cons.mpr ⟨?_, hNone⟩, hMessage⟩
        unfold VersionedMethod.isMatched
        rw [hMatches]

/-- Whatever the header asks for, the client gets an error or the one method that is there for the
version; the answer names the version unless it cannot be read. -/
theorem handle_negotiated (d : Decimals) (l : Limits) {methods : List VersionedMethod}
    (hUnambiguous : Unambiguous methods) (function : VersionedMethod → Method σ ρ δ)
    (hdr : Option String) (s : σ) :
    Negotiated d l methods function s hdr (handle d l methods function hdr s) := by
  rcases asksFor_or_unreadable d l hdr with ⟨v, hAsks⟩ | ⟨text, rfl, hText, hNone⟩
  · by_cases hSupports : l.Supports v
    · rw [handle_supported hAsks hSupports]
      unfold versionedMethod
      cases hSelect : versionSelect v methods with
      | ok f =>
        obtain ⟨hMem, hMatched⟩ := (versionSelect_eq_ok hUnambiguous).mp hSelect
        refine .called hAsks hSupports hMem hMatched fun g hg hMatchedG => ?_
        have hOther := (versionSelect_eq_ok hUnambiguous).mpr ⟨hg, hMatchedG⟩
        exact Except.ok.inj (hOther.symm.trans hSelect)
      | error e =>
        obtain ⟨hNone, message, rfl⟩ := versionSelect_error (one_le_of_asksFor hAsks) hSelect
        dsimp only
        rw [respond_raised (e := .exc (.masakari .versionNotFoundForAPIMethod message)) rfl]
        exact .unmatched hAsks hSupports hNone
    · obtain ⟨text, rfl, hText, hReads⟩ := (supports_of_not_text hAsks).resolve_left hSupports
      rw [handle_unsupported hText hReads hSupports]
      exact .unsupported hAsks hSupports _
  · obtain ⟨explanation, hHandle⟩ := handle_unreadable hText hNone
    rw [hHandle]
    exact .unreadable text hText hNone explanation

/-- A function that returns nothing. -/
def returnsNothing : Method Unit Unit Unit := ⟨pure (.data none), none⟩

theorem handle_negotiated_latest :
    Negotiated asciiDecimals limits [since 0] (fun _ => returnsNothing) () (some "latest")
      (handle asciiDecimals limits [since 0] (fun _ => returnsNothing) (some "latest") ()) :=
  handle_negotiated asciiDecimals limits (fun _ => List.countP_le_length) _ _ _

theorem text_of_versionHeader {text : String} (hPos : 1 ≤ v.verMajor)
    (h : versionHeader v = some ("masakari " ++ text)) :
    text = s!"{v.verMajor}.{v.verMinor}" := by
  rw [versionHeader_eq hPos] at h
  exact ((String.append_right_inj _).mp (Option.some.inj h)).symm

/-- The text of a version is not the keyword. -/
theorem form_ne_latest (v : APIVersionRequest) : s!"{v.verMajor}.{v.verMinor}" ≠ "latest" := by
  intro h
  have hDot : '.' ∈ "latest".toList := by
    rw [← h, toList_form]
    exact List.mem_append_right _ List.mem_cons_self
  revert hDot
  decide

/-- The version that an answer names gets the same answer when it is asked for. -/
theorem handle_again {text : String}
    (h : (handle d l methods function hdr s).version = some ("masakari " ++ text)) :
    handle d l methods function (some text) s = handle d l methods function hdr s := by
  rcases asksFor_or_unreadable d l hdr with ⟨v, hAsks⟩ | ⟨asked, rfl, hAsked, hNone⟩
  · have hPos := one_le_of_asksFor hAsks
    have hReads : Reads d _ v := reads_form hPos
    by_cases hSupports : l.Supports v
    · rw [handle_supported hAsks hSupports] at h ⊢
      obtain rfl := text_of_versionHeader hPos h
      exact handle_supported (.text (form_ne_latest v) hReads) hSupports
    · obtain ⟨asked, rfl, hAsked, hReadsAsked⟩ :=
        (supports_of_not_text hAsks).resolve_left hSupports
      rw [handle_unsupported hAsked hReadsAsked hSupports] at h ⊢
      obtain rfl := text_of_versionHeader hPos h
      exact handle_unsupported (form_ne_latest v) hReads hSupports
  · obtain ⟨explanation, hHandle⟩ := handle_unreadable hAsked hNone
    rw [hHandle] at h
    cases h

theorem handle_again_default :
    handle asciiDecimals limits [since 0] (fun _ => returnsNothing) (some "1.0") () =
      handle asciiDecimals limits [since 0] (fun _ => returnsNothing) none () := by
  apply handle_again
  rw [handle_supported .default ⟨le_rfl, le_rfl⟩]
  rfl

end Answers

end MasakariHA.Api
