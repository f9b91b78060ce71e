import DocumentMedia.Tree.Node

/-! # Visiting a tree

A visitor is called on the nodes below the root, parents first, and says for each whether to go on
below it, to keep it as it is, or to put other nodes in its place. The walk keeps a stack of
frames; each frame rebuilds the children of one parent, so a replacement never shifts the siblings
still to come.
-/
namespace DocumentMedia

/-- What becomes of a visited node; the visitor may have changed it. -/
inductive Action where
  | descend (node : Node)
  | keep (node : Node)
  | replace (nodes : List Node)

/-- Called with a node, its parent and the visitor's own state. -/
abbrev Visitor (σ : Type) := Node → Node → σ → Action × σ

/-- A parent whose children are being visited: those still to come and those rebuilt. -/
structure Frame where
  parent : Node
  source : List Node
  result : List Node

def Frame.enter (n : Node) : Frame := ⟨n, n.children, []⟩

def Frame.emit (f : Frame) (ns : List Node) : Frame := { f with result := f.result ++ ns }

/-- The walk in progress, or the finished tree. -/
inductive Walk (σ : Type) where
  | running (top : Frame) (below : List Frame) (state : σ)
  | finished (tree : Node) (state : σ)

variable {σ : Type}

/-- The action on a node; nodes that fail the test are passed through. -/
def consider (test : Node → Bool) (visitor : Visitor σ) (node parent : Node) (s : σ) :
    Action × σ :=
  if test node then visitor node parent s else (.descend node, s)

def Walk.next (test : Node → Bool) (visitor : Visitor σ) : Walk σ → Walk σ
  | .finished t s => .finished t s
  | .running top below s =>
    match top.source with
    | [] =>
      -- All siblings are done: the parent is rebuilt and goes to the frame below.
      let done := top.parent.withChildren top.result
      match below with
      | [] => .finished done s
      | f :: fs => .running (f.emit [done]) fs s
    | node :: rest =>
      let top := { top with source := rest }
      match consider test visitor node top.parent s with
      | (.replace ns, s) => .running (top.emit ns) below s
      | (.keep n, s) => .running (top.emit [n]) below s
      | (.descend n, s) =>
        if n.isParent then .running (.enter n) (top :: below) s
        else .running (top.emit [n]) below s

def Walk.run (test : Node → Bool) (visitor : Visitor σ) : Nat → Walk σ → Walk σ
  | 0, w => w
  | fuel + 1, w =>
    match w with
    | .finished t s => .finished t s
    | w => Walk.run test visitor fuel (w.next test visitor)

/-- Visits the nodes below `tree`; nothing when the walk takes more than `fuel` steps. -/
def visit (fuel : Nat) (test : Node → Bool) (visitor : Visitor σ) (tree : Node) (s : σ) :
    Option (Node × σ) :=
  match Walk.run test visitor fuel (.running (.enter tree) [] s) with
  | .finished t s => some (t, s)
  | .running .. => none

mutual

def Node.count : Node → Nat
  | .leaf .. => 1
  | .parent _ _ _ cs => 1 + Node.countAll cs

def Node.countAll : List Node → Nat
  | [] => 0
  | n :: ns => n.count + Node.countAll ns

end

theorem Node.countAll_append (a b : List Node) :
    Node.countAll (a ++ b) = Node.countAll a + Node.countAll b := by
  induction a with
  | nil => simp [Node.countAll]
  | cons n ns ih => simp [Node.countAll, ih, Nat.add_assoc]

theorem Node.count_eq (n : Node) : n.count = 1 + Node.countAll n.children := by
  cases n <;> simp [Node.count, Node.children, Node.countAll]

/-- The matching nodes among the given ones and below them, from a stack of nodes. -/
def iterFrom (test : Node → Bool) : List Node → List Node
  | [] => []
  | n :: rest =>
    have : Node.countAll (n.children ++ rest) < Node.countAll (n :: rest) := by
      simp [Node.countAll, Node.countAll_append, Node.count_eq n]
    let below := iterFrom test (n.children ++ rest)
    if test n then n :: below else below
termination_by ns => Node.countAll ns

/-- The matching nodes below `tree` in document order. -/
def iterNodes (test : Node → Bool) (tree : Node) : List Node := iterFrom test tree.children

end DocumentMedia
