import DocumentMedia.Proofs.Document.Expansion
import DocumentMedia.Proofs.Tree.Visit

/-! # Expansion as two visits

Expansion goes through a document twice. The first visit puts a node in the place of each media
directive. The second one finishes the images of each parent that has any, and only then goes on
below it; that comes to the same as finishing the children first. -/
namespace DocumentMedia

variable {test : Node → Bool} {visitor : Visitor Unit} {f : Node → Node}

/-! ## Visits that make one node of each -/

mutual

/-- What holds of a node once it holds of its children holds of every node. -/
theorem Node.induction_children {P : Node → Prop} (h : ∀ n : Node, (∀ c ∈ n.children, P c) → P n) :
    ∀ n, P n
  | .leaf .. => h _ fun _ hc => absurd hc List.not_mem_nil
  | .parent _ _ _ cs => h _ (Node.forall_mem_of_children h cs)

theorem Node.forall_mem_of_children {P : Node → Prop}
    (h : ∀ n : Node, (∀ c ∈ n.children, P c) → P n) : ∀ (ns : List Node), ∀ n ∈ ns, P n
  | [] => fun _ hn => absurd hn List.not_mem_nil
  | n :: ns => List.forall_mem_cons.mpr
    ⟨Node.induction_children h n, Node.forall_mem_of_children h ns⟩

end

/-- The recursion makes one node of a node, whatever stands behind it. -/
def Makes (test : Node → Bool) (visitor : Visitor Unit) (f : Node → Node) (n : Node) : Prop :=
  ∀ parent rest out calls, Passes test visitor parent rest () out () calls →
    ∃ more, Passes test visitor parent (n :: rest) () (f n :: out) () more

theorem Makes.row {ns : List Node} (h : ∀ n ∈ ns, Makes test visitor f n) (parent : Node) :
    ∃ calls, Passes test visitor parent ns () (ns.map f) () calls := by
  induction ns with
  | nil => exact ⟨[], .done⟩
  | cons n ns ih =>
    rw [List.forall_mem_cons] at h
    obtain ⟨calls, hrest⟩ := ih h.2
    exact h.1 parent ns _ calls hrest

namespace Document

open DocumentMedia.Attribute

/-! ## Directives -/

def isMediaDirective : Node → Bool
  | .leaf type _ (.directive name ..) => directiveTypes.contains type && isMediaName name
  | _ => false

/-- Puts the node that stands for a directive in its place. -/
def replaceDirective (videoAttrs : Fields) : Visitor Unit := fun n _ s =>
  (match n with
    | .leaf _ data (.directive name label attributes) =>
      .replace [expandDirective videoAttrs data name label attributes]
    | n => .descend n, s)

theorem makes_expandDirectives (videoAttrs : Fields) (n : Node) :
    Makes isMediaDirective (replaceDirective videoAttrs) (expandDirectives videoAttrs) n := by
  induction n using Node.induction_children with
  | h n ih =>
    intro parent rest out calls hrest
    cases n with
    | parent type data body cs =>
      obtain ⟨inner, hb⟩ := Makes.row ih (.parent type data body cs)
      rw [expandDirectives, expandDirectivesAll_eq_map]
      exact ⟨_, .passed rfl hb hrest⟩
    | leaf type data body =>
      cases body with
      | directive name label attributes =>
        simp only [expandDirectives]
        split
        · next ht =>
          have hstep : Passes isMediaDirective (replaceDirective videoAttrs) parent
              (.leaf type data (.directive name label attributes) :: rest) ()
              ([expandDirective videoAttrs data name label attributes] ++ out) () _ :=
            .replaced ht rfl hrest
          exact ⟨_, hstep⟩
        · next ht => exact ⟨_, .passed ((Bool.not_eq_true _).mp ht) .done hrest⟩
      | _ => exact ⟨_, .passed rfl .done hrest⟩

/-! ## Images -/

def hasImage (n : Node) : Bool := n.children.any Node.isImage

/-- Finishes the images right below a node. -/
def finishChildren (videoAttrs : List Char) : Visitor Unit := fun n _ s =>
  (.descend (n.withChildren (expandRow videoAttrs false n.children)), s)

theorem blockBehind?_expandImages (videoAttrs : List Char) (ns : List Node) :
    blockBehind? (ns.map (expandImages videoAttrs)) = blockBehind? ns := by
  cases ns with
  | nil => rfl
  | cons n ns =>
    cases n with
    | leaf type data body => cases body <;> rfl
    | parent => rfl

theorem isParent_finishWith (videoAttrs : List Char) (type : String) (data : Fields)
    (url alt : String) (title : Option String) (behind : Option AttrBlock) :
    (finishWith videoAttrs type data url alt title behind).isParent = false := by
  simp only [finishWith, finishImage]
  split <;> rfl

theorem expandImages_of_leaf (videoAttrs : List Char) {n : Node} (h : n.isParent = false) :
    expandImages videoAttrs n = n := by
  cases n with
  | leaf => rfl
  | parent => cases h

theorem expandRow_of_no_image (videoAttrs : List Char) {ns : List Node}
    (h : ns.any Node.isImage = false) : expandRow videoAttrs false ns = ns := by
  induction ns with
  | nil => rfl
  | cons n ns ih =>
    rw [List.any_cons, Bool.or_eq_false_iff] at h
    unfold expandRow
    simp only [Bool.false_eq_true, if_false]
    split
    · cases h.1
    · rw [ih h.2]

theorem mem_expandRow {videoAttrs : List Char} {taken : Bool} {ns : List Node} {m : Node}
    (h : m ∈ expandRow videoAttrs taken ns) : m ∈ ns ∨ m.isParent = false := by
  induction ns generalizing taken with
  | nil => simp [expandRow] at h
  | cons n ns ih =>
    unfold expandRow at h
    split at h
    · exact (ih h).imp_left (List.mem_cons_of_mem n)
    · split at h <;> rcases List.mem_cons.mp h with rfl | h
      · exact Or.inr (isParent_finishWith ..)
      · exact (ih h).imp_left (List.mem_cons_of_mem _)
      · exact Or.inl List.mem_cons_self
      · exact (ih h).imp_left (List.mem_cons_of_mem _)

theorem map_expandRow (videoAttrs : List Char) (taken : Bool) (ns : List Node) :
    (expandRow videoAttrs taken ns).map (expandImages videoAttrs) =
      expandRow videoAttrs taken (ns.map (expandImages videoAttrs)) := by
  induction ns generalizing taken with
  | nil => rfl
  | cons n ns ih =>
    rw [List.map_cons]
    unfold expandRow
    cases taken with
    | true => exact ih false
    | false =>
      simp only [Bool.false_eq_true, if_false, blockBehind?_expandImages]
      cases n with
      | parent type data body cs => simp only [List.map_cons, ih]; rfl
      | leaf type data body =>
        cases body <;> simp only [expandImages, List.map_cons, ih]
        rw [expandImages_of_leaf _ (isParent_finishWith ..)]

theorem makes_of_leaf (videoAttrs : List Char) {n : Node} (h : n.isParent = false) :
    Makes hasImage (finishChildren videoAttrs) (expandImages videoAttrs) n := by
  intro parent rest out calls hrest
  cases n with
  | leaf => exact ⟨_, .passed rfl .done hrest⟩
  | parent => cases h

theorem makes_expandImages (videoAttrs : List Char) (n : Node) :
    Makes hasImage (finishChildren videoAttrs) (expandImages videoAttrs) n := by
  induction n using Node.induction_children with
  | h n ih =>
    cases n with
    | leaf => exact makes_of_leaf videoAttrs rfl
    | parent type data body cs =>
      intro parent rest out calls hrest
      rw [expandImages, expandImagesAll_eq_map]
      cases ht : hasImage (.parent type data body cs) with
      | false =>
        have himages : (cs.map (expandImages videoAttrs)).any Node.isImage = false := by
          rw [List.any_map, ← ht]
          exact congrArg cs.any (funext fun c => by cases c <;> rfl)
        obtain ⟨inner, hb⟩ := Makes.row ih (.parent type data body cs)
        rw [expandRow_of_no_image videoAttrs himages]
        exact ⟨_, .passed ht hb hrest⟩
      | true =>
        have hrow : ∀ m ∈ expandRow videoAttrs false cs,
            Makes hasImage (finishChildren videoAttrs) (expandImages videoAttrs) m :=
          fun m hm => (mem_expandRow hm).elim (ih m) (makes_of_leaf videoAttrs)
        obtain ⟨inner, hb⟩ := Makes.row hrow (.parent type data body (expandRow videoAttrs false cs))
        -- The row is finished before it is gone through, not behind it.
        rw [map_expandRow] at hb
        exact ⟨_, .entered ht rfl hb hrest⟩

/-! ## Both -/

/-- Expanding a document is a visit of its directives and a visit of its images, in which the root
is finished first. -/
theorem expand_is_visits (videoAttrs type : String) (data : Fields) (body : Container)
    (children : List Node) :
    let tree := Node.parent type data body children
    ∃ fuel left,
      visit fuel isMediaDirective (replaceDirective (parseLoose videoAttrs.toList)) tree () =
        some (left, ()) ∧
      visit fuel hasImage (finishChildren videoAttrs.toList)
          (left.withChildren (expandRow videoAttrs.toList false left.children)) () =
        some (expand videoAttrs tree, ()) := by
  intro tree
  let row := expandDirectivesAll (parseLoose videoAttrs.toList) children
  have hdirectives : ∃ calls, Visits isMediaDirective
      (replaceDirective (parseLoose videoAttrs.toList)) tree () (.parent type data body row) ()
      calls := by
    obtain ⟨calls, hp⟩ := Makes.row
      (fun n (_ : n ∈ children) => makes_expandDirectives (parseLoose videoAttrs.toList) n) tree
    rw [← expandDirectivesAll_eq_map] at hp
    exact ⟨calls, row, hp, rfl⟩
  have himages : ∃ calls, Visits hasImage (finishChildren videoAttrs.toList)
      (.parent type data body (expandRow videoAttrs.toList false row)) () (expand videoAttrs tree)
      () calls := by
    obtain ⟨calls, hp⟩ := Makes.row
      (fun n (_ : n ∈ expandRow videoAttrs.toList false row) =>
        makes_expandImages videoAttrs.toList n)
      (.parent type data body (expandRow videoAttrs.toList false row))
    rw [map_expandRow, ← expandImagesAll_eq_map] at hp
    exact ⟨calls, _, hp, rfl⟩
  obtain ⟨_, hd⟩ := hdirectives
  obtain ⟨_, hi⟩ := himages
  obtain ⟨fuel, hf⟩ := hd.ends
  obtain ⟨more, hm⟩ := hi.ends
  exact ⟨max fuel more, _, visit_of_le (Nat.le_max_left ..) hf,
    visit_of_le (Nat.le_max_right ..) hm⟩

end Document

end DocumentMedia
