import DocumentMedia.Proofs.Tree.Visit

/-! # Document order

The nodes below a node stand in an order of their own: each comes before the nodes below it, and
these before its next sibling. That is the order of their places, read as words are. A stack of nodes
yields this order, and so does a walk whose visitor goes on everywhere. -/
namespace DocumentMedia

/-! ## Nodes in pre-order -/

mutual

/-- The nodes below a node, each in front of those below it. -/
def Node.preorder : Node → List Node
  | .leaf .. => []
  | .parent _ _ _ cs => Node.preorderAll cs

/-- The nodes of a row, each in front of those below it. -/
def Node.preorderAll : List Node → List Node
  | [] => []
  | n :: ns => n :: (n.preorder ++ Node.preorderAll ns)

end

theorem Node.preorder_eq (n : Node) : n.preorder = Node.preorderAll n.children := by
  cases n <;> rfl

theorem Node.preorderAll_append (ns ms : List Node) :
    Node.preorderAll (ns ++ ms) = Node.preorderAll ns ++ Node.preorderAll ms := by
  induction ns with
  | nil => rfl
  | cons n ns ih =>
    rw [List.cons_append, preorderAll, preorderAll, ih, List.cons_append, List.append_assoc]

theorem iterFrom_eq (test : Node → Bool) (ns : List Node) :
    iterFrom test ns = (Node.preorderAll ns).filter test := by
  induction ns using iterFrom.induct test with
  | case1 => rw [iterFrom_nil, Node.preorderAll, List.filter_nil]
  | case2 n rest _ hn ih =>
    rw [Node.preorderAll_append, ← Node.preorder_eq] at ih
    rw [iterFrom, Node.preorderAll, List.filter_cons_of_pos hn, ← ih]
    simp only [hn, if_true]
  | case3 n rest _ hn ih =>
    rw [Node.preorderAll_append, ← Node.preorder_eq] at ih
    rw [iterFrom, Node.preorderAll, List.filter_cons_of_neg hn, ← ih]
    simp only [hn, Bool.false_eq_true, if_false]

/-! ## Places -/

/-- The node at a place: each number of the place leads to one of the children. -/
def Node.at? : Node → List Nat → Option Node
  | n, [] => some n
  | n, i :: p => n.children[i]?.bind fun c => c.at? p

mutual

/-- The nodes below a node in pre-order, with their places. -/
def Node.placed : Node → List (List Nat × Node)
  | .leaf .. => []
  | .parent _ _ _ cs => Node.placedFrom 0 cs

/-- The nodes of a row and below it, the first of the row being the child with the number `i`. -/
def Node.placedFrom : Nat → List Node → List (List Nat × Node)
  | _, [] => []
  | i, n :: ns =>
    ([i], n) :: (n.placed.map (fun e => (i :: e.1, e.2)) ++ Node.placedFrom (i + 1) ns)

end

mutual

theorem Node.map_placed : ∀ n : Node, n.placed.map (·.2) = n.preorder
  | .leaf .. => rfl
  | .parent _ _ _ cs => Node.map_placedFrom 0 cs

theorem Node.map_placedFrom :
    ∀ (i : Nat) (ns : List Node), (Node.placedFrom i ns).map (·.2) = Node.preorderAll ns
  | _, [] => rfl
  | i, n :: ns => by
    rw [placedFrom, preorderAll, List.map_cons, List.map_append, List.map_map, ← map_placed n,
      map_placedFrom (i + 1) ns]
    rfl

end

mutual

theorem Node.mem_placed : ∀ (n : Node) (p : List Nat) (m : Node),
    (p, m) ∈ n.placed ↔ p ≠ [] ∧ n.at? p = some m
  | .leaf type data body, p, m => by
    cases p <;> simp [placed, at?, children]
  | .parent type data body cs, p, m => by
    rw [placed, Node.mem_placedFrom 0 cs p m]
    cases p with
    | nil => simp
    | cons i q => simp [at?, children, Option.bind_eq_some_iff]

theorem Node.mem_placedFrom : ∀ (i : Nat) (ns : List Node) (p : List Nat) (m : Node),
    (p, m) ∈ Node.placedFrom i ns ↔
      ∃ j q n, p = (i + j) :: q ∧ ns[j]? = some n ∧ n.at? q = some m
  | i, [], p, m => by simp [placedFrom]
  | i, n :: ns, p, m => by
    rw [placedFrom, List.mem_cons, List.mem_append, List.mem_map, mem_placedFrom (i + 1) ns p m]
    constructor
    · rintro (he | ⟨⟨q, m'⟩, hq, he⟩ | ⟨j, q, n', rfl, hn, hq⟩)
      · cases he
        exact ⟨0, [], n, rfl, rfl, rfl⟩
      · cases he
        exact ⟨0, q, n, rfl, rfl, ((mem_placed n q m').mp hq).2⟩
      · exact ⟨j + 1, q, n', by rw [Nat.add_right_comm, Nat.add_assoc], hn, hq⟩
    · rintro ⟨j, q, n', rfl, hn, hq⟩
      cases j with
      | zero =>
        obtain rfl : n = n' := Option.some.inj hn
        cases q with
        | nil =>
          obtain rfl : n = m := Option.some.inj hq
          exact Or.inl rfl
        | cons k q =>
          have hbelow := (mem_placed n (k :: q) m).mpr ⟨List.cons_ne_nil k q, hq⟩
          exact Or.inr (Or.inl ⟨(k :: q, m), hbelow, rfl⟩)
      | succ j =>
        exact Or.inr (Or.inr ⟨j, q, n', by rw [Nat.add_right_comm, Nat.add_assoc], hn, hq⟩)

end

/-- Document order: that of the first numbers in which two places differ, and a place is in front of
those below it. -/
def InOrder (a b : List Nat × Node) : Prop := a.1 < b.1

mutual

theorem Node.pairwise_placed : ∀ n : Node, n.placed.Pairwise InOrder
  | .leaf .. => List.Pairwise.nil
  | .parent _ _ _ cs => Node.pairwise_placedFrom 0 cs

theorem Node.pairwise_placedFrom :
    ∀ (i : Nat) (ns : List Node), (Node.placedFrom i ns).Pairwise InOrder
  | _, [] => List.Pairwise.nil
  | i, n :: ns => by
    have hbehind : ∀ e ∈ Node.placedFrom (i + 1) ns, ∀ q, i :: q < e.1 := by
      rintro ⟨p, m⟩ he q
      obtain ⟨j, q', n', rfl, -, -⟩ := (mem_placedFrom (i + 1) ns p m).mp he
      exact List.cons_lt_cons_iff.mpr (Or.inl (by omega))
    rw [placedFrom, List.pairwise_cons, List.pairwise_append]
    refine ⟨?_, ?_, pairwise_placedFrom (i + 1) ns, ?_⟩
    · intro e he
      rcases List.mem_append.mp he with he | he
      · obtain ⟨⟨p, m⟩, hp, rfl⟩ := List.mem_map.mp he
        obtain ⟨k, q, rfl⟩ := List.exists_cons_of_ne_nil ((mem_placed n p m).mp hp).1
        exact List.cons_lt_cons_iff.mpr (Or.inr ⟨rfl, List.nil_lt_cons k q⟩)
      · exact hbehind e he []
    · rw [List.pairwise_map]
      refine (pairwise_placed n).imp ?_
      intro a b hab
      exact List.cons_lt_cons_iff.mpr (Or.inr ⟨rfl, hab⟩)
    · intro a ha b hb
      obtain ⟨e, -, rfl⟩ := List.mem_map.mp ha
      exact hbehind b hb e.1

end

/-- The matching nodes in pre-order, with their places. -/
theorem map_filter_placed (test : Node → Bool) (tree : Node) :
    (tree.placed.filter fun e => test e.2).map (·.2) = iterNodes test tree := by
  have hmap := List.filter_map (f := fun e : List Nat × Node => e.2) (p := test) (l := tree.placed)
  rw [iterNodes, iterFrom_eq, ← Node.preorder_eq, ← Node.map_placed, hmap]
  rfl

/-! ## Visitors that go on everywhere -/

section

variable {σ : Type} {test : Node → Bool} {visitor : Visitor σ} {parent : Node} {ns out : List Node}
  {s s' : σ} {calls : List Call}

/-- The visitor goes on below each matching node and does not change its children. -/
def Visitor.GoesOn (test : Node → Bool) (visitor : Visitor σ) : Prop :=
  ∀ n parent s, test n = true →
    ∃ m s₁, visitor n parent s = (.descend m, s₁) ∧ m.children = n.children

theorem Visitor.GoesOn.eq_of_call (h : visitor.GoesOn test) {n : Node} {action : Action} {s₁ : σ}
    (ht : test n = true) (hv : visitor n parent s = (action, s₁)) :
    ∃ m, action = .descend m ∧ m.children = n.children := by
  obtain ⟨m, s₂, hm, hchildren⟩ := h n parent s ht
  rw [hv] at hm
  cases hm
  exact ⟨m, rfl, hchildren⟩

theorem Visitor.GoesOn.addsNothing (h : visitor.GoesOn test) : visitor.AddsNothing test := by
  intro n parent s m s₁ ht hv
  obtain ⟨m', hm, hchildren⟩ := h.eq_of_call ht hv
  cases hm
  exact Nat.le_of_eq (congrArg Node.countAll hchildren)

theorem Passes.calls_of_goesOn (h : Passes test visitor parent ns s out s' calls)
    (hg : visitor.GoesOn test) : calls.map (·.node) = (Node.preorderAll ns).filter test := by
  induction h with
  | done => rfl
  | replaced ht hv _ _ =>
    obtain ⟨m, hm, -⟩ := hg.eq_of_call ht hv
    cases hm
  | kept ht hv _ _ =>
    obtain ⟨m, hm, -⟩ := hg.eq_of_call ht hv
    cases hm
  | entered ht hv _ _ ihb ih =>
    obtain ⟨m, hm, hchildren⟩ := hg.eq_of_call ht hv
    cases hm
    rw [hchildren, ← Node.preorder_eq] at ihb
    rw [Node.preorderAll, List.filter_cons_of_pos ht, List.filter_append, ← ihb, ← ih,
      List.map_cons, List.map_append]
  | passed ht _ _ ihb ih =>
    rw [← Node.preorder_eq] at ihb
    rw [Node.preorderAll, List.filter_cons_of_neg (by simp [ht]), List.filter_append, ← ihb, ← ih,
      List.map_append]

theorem Node.withChildren_children (n : Node) : n.withChildren n.children = n := by
  cases n <;> rfl

/-- A row in which every call leaves its node as it is stays as it is. -/
theorem Passes.unchanged (h : Passes test visitor parent ns s out s' calls)
    (hc : ∀ c ∈ calls, c.action = .descend c.node) : out = ns := by
  induction h with
  | done => rfl
  | replaced _ _ _ _ => cases (List.forall_mem_cons.mp hc).1
  | kept _ _ _ _ => cases (List.forall_mem_cons.mp hc).1
  | entered _ _ _ _ ihb ih =>
    obtain ⟨hfirst, hrest⟩ := List.forall_mem_cons.mp hc
    obtain ⟨hinner, houter⟩ := List.forall_mem_append.mp hrest
    obtain rfl := Action.descend.inj hfirst
    rw [ihb hinner, ih houter, Node.withChildren_children]
  | passed _ _ _ ihb ih =>
    obtain ⟨hinner, houter⟩ := List.forall_mem_append.mp hc
    rw [ihb hinner, ih houter, Node.withChildren_children]

/-- A node of the tree that is left: but for the nodes below it, it is as it was or, if it matches,
as a call on it has left it. -/
def Revised (test : Node → Bool) (calls : List Call) (n n' : Node) : Prop :=
  ∃ m kids, n' = m.withChildren kids ∧
    ((test n = false ∧ m = n) ∨ (test n = true ∧ ∃ c ∈ calls, c.node = n ∧ c.action = .descend m))

/-- The node at a place below a row, from the number `i` of a node of the row on. -/
def rowAt? (ns : List Node) (i : Nat) (p : List Nat) : Option Node :=
  ns[i]?.bind fun n => n.at? p

/-- Two rows have the same places, and the nodes of the first are revised in the second. -/
def RevisedRow (test : Node → Bool) (calls : List Call) (ns out : List Node) : Prop :=
  ∀ i p, Option.Rel (Revised test calls) (rowAt? ns i p) (rowAt? out i p)

theorem Revised.mono {more : List Call} (h : ∀ c ∈ calls, c ∈ more) {n n' : Node}
    (hr : Revised test calls n n') : Revised test more n n' := by
  obtain ⟨m, kids, rfl, hm | ⟨ht, c, hc, hcall⟩⟩ := hr
  · exact ⟨m, kids, rfl, Or.inl hm⟩
  · exact ⟨m, kids, rfl, Or.inr ⟨ht, c, h c hc, hcall⟩⟩

theorem RevisedRow.mono {more : List Call} (h : ∀ c ∈ calls, c ∈ more)
    (hr : RevisedRow test calls ns out) : RevisedRow test more ns out := by
  intro i p
  have hrel := hr i p
  revert hrel
  generalize rowAt? ns i p = before
  generalize rowAt? out i p = behind
  intro hrel
  cases hrel with
  | some hnode => exact .some (hnode.mono h)
  | none => exact .none

theorem RevisedRow.cons {n n' : Node} (hn : Revised test calls n n')
    (hbelow : RevisedRow test calls n.children n'.children) (hrest : RevisedRow test calls ns out) :
    RevisedRow test calls (n :: ns) (n' :: out) := by
  intro i p
  cases i with
  | succ i => exact hrest i p
  | zero =>
    cases p with
    | nil => exact .some hn
    | cons j q => exact hbelow j q

theorem Passes.children_withChildren {m : Node}
    (h : Passes test visitor parent m.children s out s' calls) :
    (m.withChildren out).children = out := by
  cases m with
  | leaf type data body =>
    cases h
    rfl
  | parent type data body cs => rfl

theorem Passes.revised (h : Passes test visitor parent ns s out s' calls)
    (hg : visitor.GoesOn test) : RevisedRow test calls ns out := by
  induction h with
  | done =>
    intro i p
    exact .none
  | replaced ht hv _ _ =>
    obtain ⟨m, hm, -⟩ := hg.eq_of_call ht hv
    cases hm
  | kept ht hv _ _ =>
    obtain ⟨m, hm, -⟩ := hg.eq_of_call ht hv
    cases hm
  | @entered parent n rest s m s₁ kids s₂ inner out s₃ outer ht hv hb _ ihb ih =>
    obtain ⟨m', hm, hchildren⟩ := hg.eq_of_call ht hv
    cases hm
    have hrow : RevisedRow test (⟨n, parent, .descend m⟩ :: (inner ++ outer)) n.children kids := by
      rw [← hchildren]
      exact ihb.mono fun c hc => List.mem_cons_of_mem _ (List.mem_append_left outer hc)
    refine RevisedRow.cons ?_ ?_ ?_
    · exact ⟨m, kids, rfl, Or.inr ⟨ht, _, List.mem_cons_self, rfl, rfl⟩⟩
    · rwa [hb.children_withChildren]
    · exact ih.mono fun c hc => List.mem_cons_of_mem _ (List.mem_append_right inner hc)
  | @passed parent n rest s kids s₁ inner out s₂ outer ht hb _ ihb ih =>
    refine RevisedRow.cons ⟨n, kids, rfl, Or.inl ⟨ht, rfl⟩⟩ ?_ ?_
    · rw [hb.children_withChildren]
      exact ihb.mono fun c hc => List.mem_append_left outer hc
    · exact ih.mono fun c hc => List.mem_append_right inner hc

end

/-! ## Both traversals -/

/-- The matching nodes are yielded in pre-order: those at the places of matching nodes, each place
once and in order. A visitor that goes on everywhere is called on the same nodes in the same order.
It leaves a tree with the same places, in which only the nodes of its calls may have changed, and
the tree itself when no call changes its node. -/
theorem iterNodes_is_visit_order (test : Node → Bool) (tree : Node) :
    iterNodes test tree = tree.preorder.filter test ∧
    (∃ placed : List (List Nat × Node), placed.map (·.2) = iterNodes test tree ∧
      placed.Pairwise InOrder ∧
      ∀ p n, (p, n) ∈ placed ↔ p ≠ [] ∧ tree.at? p = some n ∧ test n = true) ∧
    ∀ (σ : Type) (visitor : Visitor σ), visitor.GoesOn test → ∀ s, ∃ fuel left s' calls,
      visit fuel test visitor tree s = some (left, s') ∧
      visit fuel test visitor.recording tree (s, []) = some (left, s', calls) ∧
      calls.map (·.node) = iterNodes test tree ∧
      (∀ i p, Option.Rel (Revised test calls) (tree.at? (i :: p)) (left.at? (i :: p))) ∧
      ((∀ c ∈ calls, c.action = .descend c.node) → left = tree) := by
  have horder : iterNodes test tree = tree.preorder.filter test := by
    rw [iterNodes, iterFrom_eq, Node.preorder_eq]
  refine ⟨horder, ⟨tree.placed.filter fun e => test e.2, map_filter_placed test tree, ?_, ?_⟩, ?_⟩
  · exact (Node.pairwise_placed tree).filter _
  · intro p n
    rw [List.mem_filter, Node.mem_placed, and_assoc]
  · intro σ visitor hg s
    obtain ⟨row, s', calls, hp⟩ := hg.addsNothing.passes tree tree.children s
    obtain ⟨fuel, hf⟩ := visit_of_visits ⟨row, hp, rfl⟩
    refine ⟨fuel, tree.withChildren row, s', calls, ?_, hf, ?_, ?_, ?_⟩
    · rw [visit_recording, hf]
      rfl
    · rw [hp.calls_of_goesOn hg, horder, Node.preorder_eq]
    · intro i p
      have hrow := hp.revised hg i p
      rw [← hp.children_withChildren] at hrow
      exact hrow
    · intro hc
      rw [hp.unchanged hc, Node.withChildren_children]

/-- Counts its calls and changes nothing. -/
def counting : Visitor Nat := fun n _ count => (.descend n, count + 1)

theorem iterNodes_is_visit_order_sample : counting.GoesOn Node.isText ∧
    ∃ fuel left count calls, visit fuel Node.isText counting sampleDocument 0 = some (left, count) ∧
      (calls : List Call).map (·.node) = [.text "a", .text "b", .text "c"] ∧
      (∀ c ∈ calls, c.action = .descend c.node) ∧ left = sampleDocument := by
  have hgoes : counting.GoesOn Node.isText := fun n _ s _ => ⟨n, s + 1, rfl, rfl⟩
  have hrun : ∃ calls, visit 20 Node.isText counting.recording sampleDocument (0, []) =
      some (sampleDocument, 3, calls) ∧ ∀ c ∈ calls, c.action = .descend c.node := by
    refine ⟨_, rfl, ?_⟩
    simp
  obtain ⟨horder, -, hvisit⟩ := iterNodes_is_visit_order Node.isText sampleDocument
  obtain ⟨fuel, left, count, calls, hv, hr, hcalls, -, hunchanged⟩ := hvisit Nat counting hgoes 0
  obtain ⟨calls', hrun, hactions⟩ := hrun
  obtain ⟨-, -, rfl⟩ := (visits_of_visit hr).unique (visits_of_visit hrun)
  refine ⟨hgoes, fuel, left, count, calls, hv, ?_, hactions, hunchanged hactions⟩
  rw [hcalls, horder]
  rfl

end DocumentMedia
