import BrokerCluster.Routing.Topic
import Std.Data.HashSet

/-!
# Patterns in a trie

Bindings under patterns are kept in a trie with one level per segment. Resolving
a key walks the trie: at a node first the `#` branch with every rest of the key,
the longest first, and then, if nothing is left of the key, the node's own
queues, otherwise the `*` branch and the branch of the next segment. Stacked `#`
branches reach one node with one rest along many ways, so the walk remembers the
pairs it has been at and walks each once. `Trie.exhaust` is the walk without
that memory. A queue is listed where it is first found.
-/
namespace BrokerCluster.Routing

variable {κ : Type}

/-- Adds an element at the end of a list that lacks it. -/
def addUnique [DecidableEq κ] (q : κ) (qs : List κ) : List κ := if q ∈ qs then qs else qs ++ [q]

/-- Elements in the order of their first occurrence, after those of `seen`. -/
def addAllUnique [DecidableEq κ] (seen qs : List κ) : List κ := qs.foldl (fun s q => addUnique q s) seen

/-- The branches of a node, in the order they were grown. -/
inductive Branches (κ : Type) where
  /-- No branch. -/
  | nil
  /-- The branch of one segment, the queues of patterns that end with it, what grows from it, and
  the other branches. -/
  | cons (segment : String) (queues : List κ) (above : Branches κ) (others : Branches κ)
  deriving DecidableEq, Repr

/-- A node with the queues of patterns that end at it. -/
structure Trie (κ : Type) where
  queues : List κ
  branches : Branches κ
  deriving DecidableEq, Repr

namespace Branches

/-- The node that the branch of a segment leads to. -/
def node? (segment : String) : Branches κ → Option (Trie κ)
  | nil => none
  | cons s queues above others => if s = segment then some ⟨queues, above⟩ else others.node? segment

/-- The single line of branches that one pattern grows. -/
def ofPattern (q : κ) : List String → Branches κ
  | [] => nil
  | s :: rest => cons s (if rest = [] then [q] else []) (ofPattern q rest) nil

/-- Branches with a queue added where the pattern ends. -/
def insert [DecidableEq κ] (q : κ) : Branches κ → List String → Branches κ
  | branches, [] => branches
  | nil, s :: rest => ofPattern q (s :: rest)
  | cons s queues above others, segment :: rest =>
    if s = segment then
      cons s (if rest = [] then addUnique q queues else queues) (above.insert q rest) others
    else cons s queues above (others.insert q (segment :: rest))

/-- The number of branches, those that grow from others included. -/
def size : Branches κ → Nat
  | nil => 0
  | cons _ _ above others => 1 + above.size + others.size

/-- A walk along a branch ends, since a node has fewer branches than the one it grows from. -/
theorem size_node?_lt {segment : String} {branches : Branches κ} {node : Trie κ}
    (h : branches.node? segment = some node) : node.branches.size < branches.size := by
  induction branches with
  | nil => simp [node?] at h
  | cons s queues above others _ ih =>
    simp only [node?] at h
    split at h
    · cases h
      simp only [size]
      omega
    · have := ih h
      simp only [size]
      omega

end Branches

/-- Every rest of a list, the longest first and the empty one last. -/
def rests : List String → List (List String)
  | [] => [[]]
  | s :: rest => (s :: rest) :: rests rest

/-- What a walk has done: the nodes and rests it has been at, and the queues it found. A node is
given by its segments, the last first. -/
structure Walk (κ : Type) where
  visited : Std.HashSet (List String × Nat)
  found : List κ

namespace Trie

def empty : Trie κ := ⟨[], .nil⟩

def insert [DecidableEq κ] (trie : Trie κ) (pattern : List String) (q : κ) : Trie κ :=
  { trie with branches := trie.branches.insert q pattern }

/-- Walks from a node with a rest of the key, unless the walk has been there. -/
def walk [DecidableEq κ] (node : Trie κ) (place : List String) (key : List String) (done : Walk κ) :
    Walk κ :=
  let ⟨visited, found⟩ := done
  if (place, key.length) ∈ visited then ⟨visited, found⟩ else
  let start : Walk κ := ⟨visited.insert (place, key.length), found⟩
  let afterMany :=
    match _h : node.branches.node? manySegments with
    | some many => (rests key).foldl (fun w rest => many.walk (manySegments :: place) rest w) start
    | none => start
  match key with
  | [] => { afterMany with found := addAllUnique afterMany.found node.queues }
  | segment :: rest =>
    let afterOne :=
      match _h : node.branches.node? oneSegment with
      | some one => one.walk (oneSegment :: place) rest afterMany
      | none => afterMany
    if isWildcard segment then afterOne else
    match _h : node.branches.node? segment with
    | some literal => literal.walk (segment :: place) rest afterOne
    | none => afterOne
termination_by node.branches.size
decreasing_by all_goals exact Branches.size_node?_lt _h

/-- The queues of every binding that admits the key, each once. -/
def resolve [DecidableEq κ] (trie : Trie κ) (key : List String) : List κ :=
  (trie.walk [] key ⟨∅, []⟩).found

/-- The queues met by the walk that remembers nothing, with repetitions. -/
def exhaust (node : Trie κ) (key : List String) : List κ :=
  let many :=
    match _h : node.branches.node? manySegments with
    | some many => (rests key).flatMap many.exhaust
    | none => []
  match key with
  | [] => many ++ node.queues
  | segment :: rest =>
    let one :=
      match _h : node.branches.node? oneSegment with
      | some one => one.exhaust rest
      | none => []
    let literal :=
      if isWildcard segment then [] else
      match _h : node.branches.node? segment with
      | some literal => literal.exhaust rest
      | none => []
    many ++ one ++ literal
termination_by node.branches.size
decreasing_by all_goals exact Branches.size_node?_lt _h

/-- The trie that the branch of a segment leads to. -/
def child (node : Trie κ) (segment : String) : Trie κ :=
  (node.branches.node? segment).getD empty

theorem child_of_node? {node child : Trie κ} {segment : String}
    (h : node.branches.node? segment = some child) : node.child segment = child := by
  rw [Trie.child, h]
  rfl

theorem child_of_node?_none {node : Trie κ} {segment : String}
    (h : node.branches.node? segment = none) : node.child segment = empty := by
  rw [Trie.child, h]
  rfl

@[simp] theorem exhaust_empty (key : List String) : (empty : Trie κ).exhaust key = [] := by
  cases key <;> simp [exhaust, empty, Branches.node?]

/-- What a walk meets besides the `#` branch: the node itself at the end of the key, or else the `*`
branch and the branch of the next segment. -/
def exhaustNext (node : Trie κ) : List String → List κ
  | [] => node.queues
  | segment :: rest =>
    (node.child oneSegment).exhaust rest ++
      if isWildcard segment then [] else (node.child segment).exhaust rest

theorem exhaust_eq (node : Trie κ) (key : List String) :
    node.exhaust key =
      (rests key).flatMap (node.child manySegments).exhaust ++ node.exhaustNext key := by
  have hbranch : ∀ (s : String) (rest : List String),
      (match _h : node.branches.node? s with
        | some next => next.exhaust rest
        | none => []) = (node.child s).exhaust rest := by
    intro s rest
    split
    · next h => rw [child_of_node? h]
    · next h => rw [child_of_node?_none h, exhaust_empty]
  have hmany : (match _h : node.branches.node? manySegments with
        | some many => (rests key).flatMap many.exhaust
        | none => []) = (rests key).flatMap (node.child manySegments).exhaust := by
    split
    · next h => rw [child_of_node? h]
    · next h => simp [child_of_node?_none h]
  rw [exhaust.eq_def]
  cases key with
  | nil => exact congrArg (· ++ node.queues) hmany
  | cons segment rest =>
    refine (List.append_assoc _ _ _).trans (congr (congrArg HAppend.hAppend hmany) ?_)
    refine congr (congrArg HAppend.hAppend (hbranch oneSegment rest)) ?_
    exact congrArg (ite (isWildcard segment) []) (hbranch segment rest)

/-- Walks along the branch of a segment with some rests of the key, if the branch was grown. -/
def walkBranch [DecidableEq κ] (node : Trie κ) (segment : String) (place : List String)
    (choices : List (List String)) (walk : Walk κ) : Walk κ :=
  match node.branches.node? segment with
  | some next => choices.foldl (fun w rest => next.walk (segment :: place) rest w) walk
  | none => walk

/-- A walk from a node, once the `#` branch was walked. -/
def walkNext [DecidableEq κ] (node : Trie κ) (place : List String) (afterMany : Walk κ) :
    List String → Walk κ
  | [] => { afterMany with found := addAllUnique afterMany.found node.queues }
  | segment :: rest =>
    let afterOne := node.walkBranch oneSegment place [rest] afterMany
    if isWildcard segment then afterOne else node.walkBranch segment place [rest] afterOne

theorem walk_eq [DecidableEq κ] (node : Trie κ) (place key : List String) (before : Walk κ) :
    node.walk place key before =
      if (place, key.length) ∈ before.visited then before else
      node.walkNext place (node.walkBranch manySegments place (rests key)
        ⟨before.visited.insert (place, key.length), before.found⟩) key := by
  have hbranch : ∀ (s : String) (rest : List String) (w : Walk κ),
      (match _h : node.branches.node? s with
        | some next => next.walk (s :: place) rest w
        | none => w) = node.walkBranch s place [rest] w := by
    intro s rest w
    unfold walkBranch
    split <;> simp_all
  have hmany : ∀ w : Walk κ,
      (match _h : node.branches.node? manySegments with
        | some many => (rests key).foldl (fun w rest => many.walk (manySegments :: place) rest w) w
        | none => w) = node.walkBranch manySegments place (rests key) w := by
    intro w
    unfold walkBranch
    split <;> simp_all
  obtain ⟨visited, found⟩ := before
  rw [walk.eq_def]
  refine ite_congr rfl (fun _ => rfl) fun _ => ?_
  cases key with
  | nil => exact congrArg (fun w : Walk κ => { w with found := addAllUnique w.found node.queues }) (hmany _)
  | cons segment rest =>
    have hone := (hbranch oneSegment rest _).trans
      (congrArg (node.walkBranch oneSegment place [rest])
        (hmany ⟨visited.insert (place, rest.length + 1), found⟩))
    refine ite_congr rfl (fun _ => hone) fun _ => ?_
    exact (hbranch segment rest _).trans (congrArg (node.walkBranch segment place [rest]) hone)

end Trie

end BrokerCluster.Routing
