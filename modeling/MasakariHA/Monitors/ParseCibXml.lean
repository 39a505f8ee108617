import Mathlib.Tactic.Common

/-!
# The cluster information base

`ParseCibXml` on the parsed document that `cibadmin --query` prints: the parameters of the
IPMI resource agent of a host.

* `Element`: an element of the document, with what `xml.etree.ElementTree` reads of it;
* `getStonithIpmiParams`, with `getStonithIpmiParams_eq` for its nested searches;
* `ReadsHost`: what should be read for a host, and `readsHost_iff`: when it is.
-/

namespace MasakariHA.Monitors

/-- An element of an XML document. -/
structure Element where
  tag : String
  attrib : List (String × String)
  children : List Element

namespace Element

def get (e : Element) (name : String) : Option String := e.attrib.lookup name

def childrenTagged (e : Element) (tag : String) : List Element :=
  e.children.filter fun child => child.tag == tag

/-- The first child with the tag. -/
def childTagged (e : Element) (tag : String) : Option Element :=
  e.children.find? fun child => child.tag == tag

end Element

/-- The dictionary `ipmi_values`: `none` where the key is missing, `some none` where the
`nvpair` tag has no `value`. -/
structure IpmiValues where
  ipaddr : Option (Option String) := none
  userid : Option (Option String) := none
  passwd : Option (Option String) := none
  interface : Option (Option String) := none

/-- No key is missing. -/
def IpmiValues.Complete (v : IpmiValues) : Prop :=
  v.userid ≠ none ∧ v.passwd ≠ none ∧ v.interface ≠ none ∧ v.ipaddr ≠ none

/-- One round of the loop of `_parse_instance_attributes_tag`. -/
def readNvpair (hostname : Option String) (r : Bool × IpmiValues) (nvpair : Element) :
    Bool × IpmiValues :=
  let value := nvpair.get "value"
  if nvpair.get "name" = some "hostname" ∧ value = hostname then (true, r.2)
  else if nvpair.get "name" = some "ipaddr" then (r.1, { r.2 with ipaddr := some value })
  else if nvpair.get "name" = some "userid" then (r.1, { r.2 with userid := some value })
  else if nvpair.get "name" = some "passwd" then (r.1, { r.2 with passwd := some value })
  else if nvpair.get "name" = some "interface" then (r.1, { r.2 with interface := some value })
  else r

def parseInstanceAttributesTag (e : Element) (hostname : Option String) : Option IpmiValues :=
  let (isTargetIpmi, ipmiValues) := e.children.foldl (readNvpair hostname) (false, {})
  if isTargetIpmi then some ipmiValues else none

def parsePrimitiveTag (e : Element) (hostname : Option String) : Option IpmiValues :=
  if e.get "type" ≠ some "external/ipmi" then none
  else (e.childrenTagged "instance_attributes").findSome? (parseInstanceAttributesTag · hostname)

def parseGroupTag (e : Element) (hostname : Option String) : Option IpmiValues :=
  (e.childrenTagged "primitive").findSome? (parsePrimitiveTag · hostname)

def getStonithIpmiParams (cib : Element) (hostname : Option String) : Option IpmiValues :=
  match cib.childTagged "configuration" with
  | none => none
  | some configuration =>
    match configuration.childTagged "resources" with
    | none => none
    | some resources => (resources.childrenTagged "group").findSome? (parseGroupTag · hostname)

/-! ## What should be read -/

/-- The elements that the search may end at, in document order. -/
def ipmiAttributes (cib : Element) : List Element :=
  let resources := (cib.childTagged "configuration").bind (·.childTagged "resources")
  let groups := resources.toList.flatMap (·.childrenTagged "group")
  let primitives := groups.flatMap (·.childrenTagged "primitive")
  (primitives.filter fun p => p.get "type" = some "external/ipmi").flatMap
    (·.childrenTagged "instance_attributes")

/-- One of the elements is named `hostname` and has the host as its value. -/
def nameHost (hostname : Option String) (l : List Element) : Bool :=
  l.any fun e => e.get "name" = some "hostname" && e.get "value" = hostname

/-- The value of the last of the elements that has the name. -/
def lastValue (name : String) (l : List Element) : Option (Option String) :=
  (l.reverse.find? fun e => e.get "name" = some name).map (·.get "value")

def readValues (l : List Element) : IpmiValues :=
  ⟨lastValue "ipaddr" l, lastValue "userid" l, lastValue "passwd" l, lastValue "interface" l⟩

namespace Element

def nvpairs (e : Element) : List Element := e.childrenTagged "nvpair"

end Element

/-- The element whose values are returned. -/
def foundAttributes (cib : Element) (hostname : Option String) : Option Element :=
  (ipmiAttributes cib).find? fun e => (parseInstanceAttributesTag e hostname).isSome

/-- The values are those of the `nvpair` tags of the first element that names the host with one,
and none comes from an element that does not. -/
def ReadsHost (cib : Element) (hostname : Option String) : Prop :=
  getStonithIpmiParams cib hostname =
      ((ipmiAttributes cib).find? fun e => nameHost hostname e.nvpairs).map
        (fun e => readValues e.nvpairs) ∧
    ∀ e, foundAttributes cib hostname = some e → nameHost hostname e.nvpairs = true

/-! ## The search -/

section Search

variable {cib e : Element} {hostname : Option String}

theorem findSome?_flatMap {α β γ : Type} (l : List α) (f : α → List β) (g : β → Option γ) :
    (l.flatMap f).findSome? g = l.findSome? fun a => (f a).findSome? g := by
  induction l with
  | nil => rfl
  | cons a l ih =>
    rw [List.flatMap_cons, List.findSome?_append, List.findSome?_cons, ih]
    cases (f a).findSome? g <;> rfl

theorem parsePrimitiveTags (l : List Element) : l.findSome? (parsePrimitiveTag · hostname) =
    ((l.filter fun p => p.get "type" = some "external/ipmi").flatMap
      (·.childrenTagged "instance_attributes")).findSome?
        (parseInstanceAttributesTag · hostname) := by
  induction l with
  | nil => rfl
  | cons p l ih =>
    rw [List.findSome?_cons, ih, List.filter_cons]
    unfold parsePrimitiveTag
    by_cases hType : p.get "type" = some "external/ipmi"
    · rw [if_neg (not_not_intro hType), if_pos (decide_eq_true hType), List.flatMap_cons,
        List.findSome?_append]
      cases (p.childrenTagged "instance_attributes").findSome?
        (parseInstanceAttributesTag · hostname) <;> rfl
    · rw [if_pos hType, if_neg (by simpa using hType)]

/-- The nested searches are one search, in document order. -/
theorem getStonithIpmiParams_eq : getStonithIpmiParams cib hostname =
    (ipmiAttributes cib).findSome? (parseInstanceAttributesTag · hostname) := by
  unfold getStonithIpmiParams ipmiAttributes
  cases cib.childTagged "configuration" with
  | none => rfl
  | some configuration =>
    dsimp only [Option.bind_some]
    cases configuration.childTagged "resources" with
    | none => rfl
    | some resources =>
      dsimp only [Option.toList_some]
      rw [← parsePrimitiveTags, findSome?_flatMap, List.flatMap_singleton]
      rfl

theorem lastValue_cons (name : String) (l : List Element) :
    lastValue name (e :: l) =
      (lastValue name l).or (if e.get "name" = some name then some (e.get "value") else none) := by
  unfold lastValue
  rw [List.reverse_cons, List.find?_append, Option.map_or]
  congr 1
  by_cases hName : e.get "name" = some name
  · simp [hName]
  · simp [hName]

theorem foldl_readNvpair (l : List Element) (r : Bool × IpmiValues) :
    l.foldl (readNvpair hostname) r = (r.1 || nameHost hostname l,
      ⟨(lastValue "ipaddr" l).or r.2.ipaddr, (lastValue "userid" l).or r.2.userid,
        (lastValue "passwd" l).or r.2.passwd, (lastValue "interface" l).or r.2.interface⟩) := by
  induction l generalizing r with
  | nil =>
    simp [nameHost, lastValue]
  | cons e l ih =>
    rw [List.foldl_cons, ih, lastValue_cons, lastValue_cons, lastValue_cons, lastValue_cons]
    have hAny : nameHost hostname (e :: l) =
        ((e.get "name" = some "hostname" && e.get "value" = hostname) || nameHost hostname l) := rfl
    rw [hAny]
    unfold readNvpair
    by_cases hHost : e.get "name" = some "hostname"
    · by_cases hValue : e.get "value" = hostname
      · simp [hHost, hValue]
      · simp [hHost, hValue]
    by_cases hIpaddr : e.get "name" = some "ipaddr"
    · simp [hIpaddr]
    by_cases hUserid : e.get "name" = some "userid"
    · simp [hUserid]
    by_cases hPasswd : e.get "name" = some "passwd"
    · simp [hPasswd]
    by_cases hInterface : e.get "name" = some "interface"
    · simp [hInterface]
    · simp [hHost, hIpaddr, hUserid, hPasswd, hInterface]

/-- What is read of an element, whatever the tags of its children. -/
theorem parseInstanceAttributesTag_eq : parseInstanceAttributesTag e hostname =
    if nameHost hostname e.children then some (readValues e.children) else none := by
  unfold parseInstanceAttributesTag
  rw [foldl_readNvpair]
  simp [readValues]

theorem foundAttributes_eq : foundAttributes cib hostname =
    (ipmiAttributes cib).find? fun e => nameHost hostname e.children := by
  unfold foundAttributes
  congr 1
  funext e
  rw [parseInstanceAttributesTag_eq]
  cases nameHost hostname e.children <;> rfl

theorem findSome?_ite {α β : Type} (p : α → Bool) (f : α → β) (l : List α) :
    (l.findSome? fun a => if p a then some (f a) else none) = (l.find? p).map f := by
  induction l with
  | nil => rfl
  | cons a l ih =>
    rw [List.findSome?_cons, List.find?_cons, ih]
    cases p a <;> rfl

/-- The values that are returned are those of `foundAttributes`. -/
theorem getStonithIpmiParams_found : getStonithIpmiParams cib hostname =
    (foundAttributes cib hostname).map fun e => readValues e.children := by
  rw [getStonithIpmiParams_eq, foundAttributes_eq, ← findSome?_ite]
  simp only [parseInstanceAttributesTag_eq]

theorem nameHost_of_nvpairs (h : nameHost hostname e.nvpairs = true) :
    nameHost hostname e.children = true := by
  obtain ⟨nvpair, hMem, hName⟩ := List.any_eq_true.mp h
  exact List.any_eq_true.mpr ⟨nvpair, (List.mem_filter.mp hMem).1, hName⟩

/-- The first element that meets a weaker condition is the first to meet the stronger one, if it
does. -/
theorem find?_of_weaker {α : Type} {p q : α → Bool} (hImp : ∀ a, q a = true → p a = true)
    {l : List α} {a : α} (hFind : l.find? p = some a) (ha : q a = true) :
    l.find? q = some a := by
  obtain ⟨-, before, after, rfl, hBefore⟩ := List.find?_eq_some_iff_append.mp hFind
  refine List.find?_eq_some_iff_append.mpr ⟨ha, before, after, rfl, fun b hb => ?_⟩
  by_contra hNot
  have hWeak := hImp b (by simpa using hNot)
  simpa [hWeak] using hBefore b hb

/-- What is read for the host is right exactly when in the element that the search ends at the
`nvpair` tags alone name the host, and the other children hide none of their values. -/
theorem readsHost_iff (cib : Element) (hostname : Option String) : ReadsHost cib hostname ↔
    ∀ e, ((ipmiAttributes cib).find? fun e => nameHost hostname e.children) = some e →
      nameHost hostname e.nvpairs = true ∧
        ∀ name ∈ ["ipaddr", "userid", "passwd", "interface"],
          lastValue name e.children = lastValue name e.nvpairs := by
  unfold ReadsHost
  rw [getStonithIpmiParams_found, foundAttributes_eq]
  constructor
  · rintro ⟨hValues, hNames⟩ e hFind
    have hName := hNames e hFind
    rw [hFind, find?_of_weaker (fun _ => nameHost_of_nvpairs) hFind hName, Option.map_some,
      Option.map_some, Option.some.injEq] at hValues
    simp only [readValues, IpmiValues.mk.injEq] at hValues
    refine ⟨hName, ?_⟩
    simp only [List.forall_mem_cons, List.not_mem_nil, false_implies, implies_true, and_true]
    exact hValues
  · intro h
    refine ⟨?_, fun e hFind => (h e hFind).1⟩
    cases hFind : (ipmiAttributes cib).find? fun e => nameHost hostname e.children with
    | none =>
      have hNone : ((ipmiAttributes cib).find? fun e => nameHost hostname e.nvpairs) = none := by
        rw [List.find?_eq_none] at hFind ⊢
        exact fun e hMem hName => hFind e hMem (nameHost_of_nvpairs hName)
      rw [hNone]
      rfl
    | some e =>
      obtain ⟨hName, hSame⟩ := h e hFind
      rw [find?_of_weaker (fun _ => nameHost_of_nvpairs) hFind hName, Option.map_some,
        Option.map_some]
      simp only [readValues]
      rw [hSame "ipaddr" (by simp), hSame "userid" (by simp), hSame "passwd" (by simp),
        hSame "interface" (by simp)]

end Search

/-! ## A child that is not an `nvpair` -/

def nvpair (name value : String) : Element := ⟨"nvpair", [("name", name), ("value", value)], []⟩

/-- The agent of `compute2`, with an `attribute` tag that has the name of another host. -/
def markedCib : Element :=
  ⟨"cib", [], [⟨"configuration", [], [⟨"resources", [], [⟨"group", [], [
    ⟨"primitive", [("type", "external/ipmi")], [⟨"instance_attributes", [], [
      nvpair "hostname" "compute2", nvpair "ipaddr" "192.0.2.2", nvpair "userid" "admin",
      nvpair "passwd" "secret", nvpair "interface" "lanplus",
      ⟨"attribute", [("name", "hostname"), ("value", "compute1")], []⟩]⟩]⟩]⟩]⟩]⟩]⟩

/-- For every document and every host the right values are read. -/
def AlwaysReadsHost : Prop := ∀ (cib : Element) (hostname : String), ReadsHost cib (some hostname)

/-- The parameters of `compute2` are returned for `compute1`. -/
theorem not_alwaysReadsHost : ¬ AlwaysReadsHost := by
  intro h
  have hReads := (h markedCib "compute1").1
  have hNone : ((ipmiAttributes markedCib).find? fun e =>
      nameHost (some "compute1") e.nvpairs) = none := by decide
  have hFound : getStonithIpmiParams markedCib (some "compute1") =
      some ⟨some (some "192.0.2.2"), some (some "admin"), some (some "secret"),
        some (some "lanplus")⟩ := rfl
  rw [hNone, hFound] at hReads
  cases hReads

end MasakariHA.Monitors
