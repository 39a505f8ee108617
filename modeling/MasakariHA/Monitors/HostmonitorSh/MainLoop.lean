import Mathlib.Data.List.Nodup
import MasakariHA.Monitors.HostmonitorSh.CrmMon

/-!
# How `hostmonitor.sh` deals the nodes out

The part of the main loop that divides the nodes among at most `MAX_CHILD_PROCESS` calls of
`parse_node_status` in the background.

* `distribute`: the loops over the children and over the work of a child;
* `reads_distribute`, `args_distribute`: what the children together read and are given;
* `HandsOut`, `handsOut_iff`: when every node is given to exactly one child, and no child reads past
  the array.
-/

namespace MasakariHA.Monitors.HostmonitorSh

open Lib.Shell

/-! ## The loops -/

/-- A call of `parse_node_status`: the indices that were read for it, and its arguments as they are
written. -/
structure Child where
  reads : List Nat
  param : Text
  deriving DecidableEq, Repr

section Loops

variable (nodes : List Text) (myNodeName : Text)

/-- `param` after the node at an index; past the array there is the empty text. -/
def addNode (n : Nat) (param : Text) : Text :=
  let node := (nodes[n]?).getD []
  -- `MY_NODE_NAME` is a host name, and so no pattern
  if node ≠ [] ∧ node ≠ myNodeName then param ++ node ++ [' '] else param

/-- The loop over the work of a child, of which so much is left. -/
def takeWork : Nat → Nat → Child → Child
  | 0, _, child => child
  | work + 1, n, child =>
    takeWork work (n + 1) ⟨child.reads ++ [n], addNode nodes myNodeName n child.param⟩

/-- The loop over the children, of which so many are left. -/
def runJobs (childMinWork childMaxWork maxWorkCount m : Nat) : Nat → Nat → List Child
  | 0, _ => []
  | jobs + 1, n =>
    let work := if m < maxWorkCount then childMaxWork else childMinWork
    -- `m` is the same for the next child
    takeWork nodes myNodeName work n ⟨[], []⟩ ::
      runJobs childMinWork childMaxWork maxWorkCount m jobs (n + work)

/-- The children of one pass of the main loop, for what `count_cluster_nodes` returned. -/
def distribute (result maxChildProcess : Nat) : List Child :=
  if result = 0 then []
  else
    let maxChildProcess := if result ≤ maxChildProcess then result else maxChildProcess
    let childMinWork := result / maxChildProcess
    runJobs nodes myNodeName childMinWork (childMinWork + 1) (result % maxChildProcess) 0
      maxChildProcess 0

end Loops

/-! ## A pass -/

/-- A pass of the main loop. Every node stands once in the output of `crm_mon`, and `echo` takes
none for an option. -/
structure Pass extends CrmMon where
  nodup : (listed lines).Nodup
  noOption : ∀ w ∈ listed lines, isEchoOption w = false
  myNodeName : Text
  maxChildProcess : Nat
  one_le : 1 ≤ maxChildProcess

namespace Pass

variable (g : Globbing) (p : Pass)

def nodes : List Text := listed p.lines

def children : List Child :=
  distribute (nodesArray g p.lines) p.myNodeName (countClusterNodes g p.lines) p.maxChildProcess

/-- Every node but the own one is given to exactly one child, and no child reads past the array. -/
structure HandsOut : Prop where
  once : ∀ node ∈ p.nodes, node ≠ p.myNodeName →
    ((p.children g).flatMap fun child => g.split child.param).count node = 1
  bounded : ∀ child ∈ p.children g, ∀ i ∈ child.reads, i < (nodesArray g p.lines).length

end Pass

/-! ## What the children read and are given -/

/-- Names as they are written for a child. -/
def written (names : List Text) : Text := names.flatMap fun name => name ++ [' ']

section Distribute

variable {nodes names : List Text} {myNodeName : Text} {g : Globbing}

theorem words_written (hNe : ∀ w ∈ names, w ≠ []) (h : ∀ w ∈ names, ∀ c ∈ w, blank c = false) :
    words (written names) = names := by
  induction names with
  | nil => rfl
  | cons name names ih =>
    obtain ⟨hName, hNe⟩ := List.forall_mem_cons.mp hNe
    obtain ⟨hBlank, h⟩ := List.forall_mem_cons.mp h
    unfold written at ih ⊢
    rw [List.flatMap_cons, List.append_assoc, List.singleton_append, words_append rfl,
      words_word hName hBlank, ih hNe h]
    rfl

/-- The nodes of the next so many places, without the own one. -/
def others (nodes : List Text) (myNodeName : Text) (n work : Nat) : List Text :=
  ((nodes.drop n).take work).filter fun node => node ≠ [] ∧ node ≠ myNodeName

theorem others_succ (n work : Nat) : written (others nodes myNodeName n (work + 1)) =
    addNode nodes myNodeName n [] ++ written (others nodes myNodeName (n + 1) work) := by
  unfold others addNode
  by_cases hn : n < nodes.length
  · rw [List.drop_eq_getElem_cons hn, List.take_succ_cons, List.filter_cons,
      List.getElem?_eq_getElem hn, Option.getD_some]
    by_cases hNode : nodes[n] ≠ [] ∧ nodes[n] ≠ myNodeName
    · rw [if_pos (decide_eq_true hNode), if_pos hNode]
      rfl
    · rw [if_neg (by simpa using hNode), if_neg hNode]
      rfl
  · rw [List.drop_eq_nil_of_le (Nat.le_of_not_lt hn),
      List.drop_eq_nil_of_le ((Nat.le_of_not_lt hn).trans (Nat.le_succ n)),
      List.getElem?_eq_none (Nat.le_of_not_lt hn)]
    simp [written]

theorem addNode_eq (n : Nat) (param : Text) :
    addNode nodes myNodeName n param = param ++ addNode nodes myNodeName n [] := by
  unfold addNode
  dsimp only
  split
  · rw [List.nil_append, List.append_assoc]
  · rw [List.append_nil]

theorem takeWork_eq (work n : Nat) (child : Child) : takeWork nodes myNodeName work n child =
    ⟨child.reads ++ List.range' n work,
      child.param ++ written (others nodes myNodeName n work)⟩ := by
  induction work generalizing n child with
  | zero => simp [takeWork, others, written]
  | succ work ih =>
    rw [takeWork, ih, others_succ, addNode_eq, List.append_assoc, List.append_assoc]
    rfl

theorem others_add (n work work' : Nat) : others nodes myNodeName n (work + work') =
    others nodes myNodeName n work ++ others nodes myNodeName (n + work) work' := by
  unfold others
  rw [List.take_add, List.filter_append, List.drop_drop]

/-- The arguments of a child are the names that were written. -/
theorem split_others (g : Globbing) (hPlain : ∀ w ∈ nodes, ∀ c ∈ w, patternSign c = false)
    (hBlank : ∀ w ∈ nodes, ∀ c ∈ w, blank c = false) (n work : Nat) :
    g.split (written (others nodes myNodeName n work)) = others nodes myNodeName n work := by
  have hMem : ∀ w ∈ others nodes myNodeName n work, w ≠ [] ∧ w ∈ nodes := by
    intro w hw
    obtain ⟨hTaken, hKept⟩ := List.mem_filter.mp hw
    exact ⟨(of_decide_eq_true hKept).1, List.mem_of_mem_drop (List.mem_of_mem_take hTaken)⟩
  have hWords := words_written (fun w hw => (hMem w hw).1) fun w hw => hBlank w (hMem w hw).2
  rw [g.split_eq, hWords]
  rw [hWords]
  exact fun w hw => hPlain w (hMem w hw).2

/-- The children together, if each of them is given so much work. -/
theorem runJobs_eq (g : Globbing) (hPlain : ∀ w ∈ nodes, ∀ c ∈ w, patternSign c = false)
    (hBlank : ∀ w ∈ nodes, ∀ c ∈ w, blank c = false)
    {childMinWork childMaxWork maxWorkCount m work : Nat}
    (hWork : (if m < maxWorkCount then childMaxWork else childMinWork) = work) (jobs n : Nat) :
    (runJobs nodes myNodeName childMinWork childMaxWork maxWorkCount m jobs n).flatMap Child.reads =
        List.range' n (jobs * work) ∧
      (runJobs nodes myNodeName childMinWork childMaxWork maxWorkCount m jobs n).flatMap
          (fun child => g.split child.param) = others nodes myNodeName n (jobs * work) := by
  induction jobs generalizing n with
  | zero => simp [runJobs, others]
  | succ jobs ih =>
    obtain ⟨hReads, hArgs⟩ := ih (n + work)
    have hSum : (jobs + 1) * work = work + jobs * work := by rw [Nat.succ_mul, Nat.add_comm]
    rw [runJobs, hWork, takeWork_eq, List.flatMap_cons, List.flatMap_cons, hReads, hArgs,
      List.nil_append,
      List.nil_append, split_others g hPlain hBlank, hSum, others_add, List.range'_append_1]
    exact ⟨rfl, rfl⟩

end Distribute

/-! ## How much work there is -/

/-- How many places the children together read. -/
def totalWork (result maxChildProcess : Nat) : Nat :=
  let jobs := min result maxChildProcess
  jobs * (if 0 < result % jobs then result / jobs + 1 else result / jobs)

/-- Without a remainder the work is the result; with one, each child reads one place more. -/
theorem totalWork_cases (result : Nat) {maxChildProcess : Nat} (hPos : 1 ≤ maxChildProcess) :
    totalWork result maxChildProcess = result ∧
        (result ≤ maxChildProcess ∨ maxChildProcess ∣ result) ∨
      result < totalWork result maxChildProcess ∧
        totalWork result maxChildProcess + 1 < result + result ∧
        ¬ (result ≤ maxChildProcess ∨ maxChildProcess ∣ result) := by
  unfold totalWork
  dsimp only
  rcases Nat.le_total result maxChildProcess with hFew | hMany
  · rw [min_eq_left hFew, Nat.mod_self, if_neg (Nat.lt_irrefl 0)]
    exact Or.inl ⟨Nat.mul_div_cancel' (Nat.dvd_refl result), Or.inl hFew⟩
  · rw [min_eq_right hMany]
    have hSplit := Nat.div_add_mod result maxChildProcess
    by_cases hRest : 0 < result % maxChildProcess
    · have hLess := Nat.mod_lt result hPos
      have hNe : result ≠ maxChildProcess := by
        rintro rfl
        rw [Nat.mod_self] at hRest
        exact Nat.lt_irrefl 0 hRest
      rw [if_pos hRest, Nat.mul_succ]
      refine Or.inr ⟨by omega, by omega, ?_⟩
      rintro (hFew | hDvd)
      · exact hNe (Nat.le_antisymm hFew hMany)
      · exact hRest.ne' (Nat.mod_eq_zero_of_dvd hDvd)
    · rw [if_neg hRest]
      have hZero := Nat.eq_zero_of_not_pos hRest
      exact Or.inl ⟨by omega, Or.inr (Nat.dvd_of_mod_eq_zero hZero)⟩

/-! ## When all nodes are handed out -/

namespace Pass

variable {g : Globbing} {p : Pass}

theorem nodesArray_eq_nodes (g : Globbing) (p : Pass) : nodesArray g p.lines = p.nodes :=
  nodesArray_eq g p.toCrmMon p.noOption

/-- A node is a word of what is listed. -/
theorem exists_mem_words {w : Text} (hw : w ∈ p.nodes) : ∃ text, w ∈ words text := by
  unfold nodes listed at hw
  rw [List.mem_append, List.mem_append] at hw
  rcases hw with (hOnline | hOffline) | hOther
  · exact ⟨_, hOnline⟩
  · exact ⟨_, hOffline⟩
  · exact ⟨_, hOther⟩

theorem blank_of_mem_nodes {w : Text} (hw : w ∈ p.nodes) : ∀ c ∈ w, blank c = false := by
  obtain ⟨text, hWord⟩ := exists_mem_words hw
  exact fun c => blank_of_mem_words hWord

theorem ne_nil_of_mem_nodes {w : Text} (hw : w ∈ p.nodes) : w ≠ [] := by
  obtain ⟨text, hWord⟩ := exists_mem_words hw
  exact ne_nil_of_mem_words hWord

theorem children_eq (g : Globbing) (p : Pass) :
    (p.children g).flatMap Child.reads =
        List.range (totalWork (p.nodes.length % 256) p.maxChildProcess) ∧
      (p.children g).flatMap (fun child => g.split child.param) =
        others p.nodes p.myNodeName 0 (totalWork (p.nodes.length % 256) p.maxChildProcess) := by
  unfold children countClusterNodes distribute totalWork
  rw [nodesArray_eq_nodes]
  generalize p.nodes.length % 256 = result
  dsimp only
  split
  · rename_i hNone
    subst hNone
    simp [others]
  · have hMin : (if result ≤ p.maxChildProcess then result else p.maxChildProcess) =
        min result p.maxChildProcess := rfl
    rw [hMin, List.range_eq_range']
    exact runJobs_eq g p.noPattern (fun w => blank_of_mem_nodes) rfl _ _

theorem bounded_iff : (∀ child ∈ p.children g, ∀ i ∈ child.reads, i < p.nodes.length) ↔
    totalWork (p.nodes.length % 256) p.maxChildProcess ≤ p.nodes.length := by
  have hReads := (children_eq g p).1
  have hFlat : (∀ child ∈ p.children g, ∀ i ∈ child.reads, i < p.nodes.length) ↔
      ∀ i ∈ (p.children g).flatMap Child.reads, i < p.nodes.length := by
    simp only [List.mem_flatMap]
    exact ⟨fun h i ⟨child, hChild, hi⟩ => h child hChild i hi,
      fun h child hChild i hi => h i ⟨child, hChild, hi⟩⟩
  rw [hFlat, hReads]
  simp only [List.mem_range]
  exact ⟨fun h => Nat.le_of_not_lt fun hLess => Nat.lt_irrefl _ (h _ hLess),
    fun h i hi => hi.trans_le h⟩

/-- Nodes that the children do not reach are given to none. -/
theorem not_once_of_short {total : Nat} (hShort : total + 2 ≤ p.nodes.length) :
    ¬ ∀ node ∈ p.nodes, node ≠ p.myNodeName →
      (others p.nodes p.myNodeName 0 total).count node = 1 := by
  intro hOnce
  have hLeft : ∀ i, total ≤ i → (hi : i < p.nodes.length) → p.nodes[i] = p.myNodeName := by
    intro i hTotal hi
    by_contra hNe
    have hGiven := List.count_pos_iff.mp
      (Nat.lt_of_lt_of_eq Nat.zero_lt_one (hOnce _ (List.getElem_mem hi) hNe).symm)
    obtain ⟨j, hj, hSame⟩ := List.mem_take_iff_getElem.mp (List.mem_filter.mp hGiven).1
    have hIndex := p.nodup.getElem_inj_iff.mp hSame
    omega
  have hSame := (hLeft total le_rfl (by omega)).trans (hLeft (total + 1) (by omega) (by omega)).symm
  have hIndex := p.nodup.getElem_inj_iff.mp hSame
  omega

/-- The nodes are handed out exactly if there are less than 256 of them, and either no more than the
children or a multiple of them. -/
theorem handsOut_iff (g : Globbing) (p : Pass) : p.HandsOut g ↔ p.nodes.length < 256 ∧
    (p.nodes.length ≤ p.maxChildProcess ∨ p.maxChildProcess ∣ p.nodes.length) := by
  have hArgs := (children_eq g p).2
  have hBounded := bounded_iff (g := g) (p := p)
  rcases Nat.lt_or_ge p.nodes.length 256 with hFew | hMany
  · rw [Nat.mod_eq_of_lt hFew] at hArgs hBounded
    rcases totalWork_cases p.nodes.length p.one_le with
      ⟨hTotal, hEven⟩ | ⟨hMore, -, hUneven⟩
    · rw [hTotal] at hArgs hBounded
      refine iff_of_true ⟨fun node hNode hOther => ?_, ?_⟩ ⟨hFew, hEven⟩
      · have hKept : node ∈ others p.nodes p.myNodeName 0 p.nodes.length := by
          rw [others, List.drop_zero, List.take_length, List.mem_filter]
          exact ⟨hNode, decide_eq_true ⟨ne_nil_of_mem_nodes hNode, hOther⟩⟩
        rw [hArgs]
        refine List.count_eq_one_of_mem ?_ hKept
        exact ((p.nodup.sublist (List.drop_sublist 0 _)).sublist (List.take_sublist _ _)).filter _
      · rw [nodesArray_eq_nodes]
        exact hBounded.mpr le_rfl
    · refine iff_of_false (fun h => ?_) fun h => hUneven h.2
      have hWithin := h.bounded
      rw [nodesArray_eq_nodes] at hWithin
      exact Nat.not_lt_of_le (hBounded.mp hWithin) hMore
  · refine iff_of_false (fun h => ?_) fun h => Nat.not_lt_of_le hMany h.1
    have hOnce := h.once
    rw [hArgs] at hOnce
    refine not_once_of_short ?_ hOnce
    have hRest := Nat.mod_lt p.nodes.length (show 0 < 256 by decide)
    rcases totalWork_cases (p.nodes.length % 256) p.one_le with
      ⟨hTotal, -⟩ | ⟨-, hLess, -⟩ <;> omega

end Pass

/-! ## Four nodes and three children -/

def fourNodes : Pass where
  lines := ["Online: [ a b c d ]".toList]
  noPattern := noPattern_of_all (by decide)
  nodup := by decide
  noOption := by decide
  myNodeName := ['a']
  maxChildProcess := 3
  one_le := by decide

/-- Whatever is listed, and however many children there may be, the nodes are handed out. -/
def AlwaysHandsOut (g : Globbing) : Prop := ∀ p : Pass, p.HandsOut g

/-- Each of the three children takes two of the four nodes. -/
theorem not_alwaysHandsOut : ¬ AlwaysHandsOut noFiles := by
  intro h
  have hLast : ⟨[4, 5], []⟩ ∈ fourNodes.children noFiles := by decide
  have hWithin := (h fourNodes).bounded _ hLast 4 List.mem_cons_self
  revert hWithin
  decide

end MasakariHA.Monitors.HostmonitorSh
