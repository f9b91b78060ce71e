import DocumentMedia.Asset.Surface
import DocumentMedia.Document.Page
import DocumentMedia.Proofs.Document.Folding
import DocumentMedia.Proofs.Document.Siblings

/-! # Trees of documents

The nodes that parsing makes carry the types of their kind and no data. Whatever is then published
for a document, its tree can be expanded. -/
namespace DocumentMedia

namespace Node

mutual

theorem Throughout.imp {P Q : Node → Prop} (h : ∀ n, P n → Q n) :
    ∀ n : Node, n.Throughout P → n.Throughout Q
  | .leaf .., hp => h _ hp
  | .parent _ _ _ children, hp => ⟨h _ hp.1, ThroughoutAll.imp h children hp.2⟩

theorem ThroughoutAll.imp {P Q : Node → Prop} (h : ∀ n, P n → Q n) :
    ∀ ns : List Node, ThroughoutAll P ns → ThroughoutAll Q ns
  | [], _ => trivial
  | n :: ns, hp => ⟨Throughout.imp h n hp.1, ThroughoutAll.imp h ns hp.2⟩

end

/-- A node with the type of its kind and without data. -/
def Fresh (n : Node) : Prop := n.FitsType ∧ n.data = []

end Node

namespace Document

open DocumentMedia.Markdown DocumentMedia.Asset

/-! ## Nodes of tokens -/

theorem fresh_build (flow : Bool) (name : List Char) (props : List Property) (inner : List Char) :
    (Component.build flow name props inner).Throughout Node.Fresh := by
  have htype : Component.typeName flow ∈ componentTypes := by
    cases flow <;> decide
  simp only [Component.build]
  refine ⟨⟨htype, rfl⟩, ?_⟩
  split
  · trivial
  · exact ⟨⟨trivial, rfl⟩, trivial⟩

/-! ## Open parents -/

/-- An open parent that is no component, with fresh nodes so far. -/
structure OpenNode.Sound (o : OpenNode) : Prop where
  body : ∀ name props, o.body ≠ .component name props
  children : ∀ n ∈ o.children, n.Throughout Node.Fresh

theorem OpenNode.Sound.close {o : OpenNode} (h : o.Sound) : o.close.Throughout Node.Fresh := by
  refine ⟨⟨?_, rfl⟩, Node.throughoutAll_iff.mpr fun n hn => h.children n (List.mem_reverse.mp hn)⟩
  unfold Node.FitsType
  split
  · next he => cases he
  · next he => exact absurd (Node.parent.inj he).2.2.1 (h.body _ _)
  · trivial

theorem sound_openNode (t : Token) : (openNode t).Sound := by
  simp only [openNode]
  split <;> exact ⟨nofun, nofun⟩

theorem fresh_appendNode {siblings : List Node} {n : Node}
    (hs : ∀ m ∈ siblings, m.Throughout Node.Fresh) (hn : n.Throughout Node.Fresh) :
    ∀ m ∈ appendNode siblings n, m.Throughout Node.Fresh := by
  unfold appendNode
  split
  · rw [List.forall_mem_cons] at hs ⊢
    exact ⟨⟨trivial, hs.1.2⟩, hs.2⟩
  · exact List.forall_mem_cons.mpr ⟨hn, hs⟩

theorem OpenNode.Sound.append {o : OpenNode} (h : o.Sound) {n : Node}
    (hn : n.Throughout Node.Fresh) : (o.append n).Sound :=
  ⟨h.body, fresh_appendNode h.children hn⟩

/-- Parents stay sound while tokens are folded, and the nodes below them fresh. -/
theorem sound_invariant : FoldInvariant OpenNode.Sound (Node.Throughout Node.Fresh) where
  holder _ := ⟨nofun, nofun⟩
  opened := sound_openNode
  children ho := ho.children
  closed ho := ho.close
  leaf htype := ⟨htype, rfl⟩
  built := fresh_build
  append ho hn := ho.append hn
  push ho hn _ := ⟨ho.body, List.forall_mem_cons.mpr ⟨hn, ho.children⟩⟩
  pop ho := ⟨ho.body, fun n hn => ho.children n (List.mem_of_mem_drop hn)⟩
  detach ho := ⟨ho.body, ho.children⟩

theorem fresh_treeOfTokens {components : Bool} {ts : List BlockToken} {tree : Node}
    (h : treeOfTokens components ts = .ok tree) :
    tree.isParent ∧ tree.Throughout Node.Fresh :=
  sound_invariant.treeOfTokens h

theorem fresh_bodyTree (dialect : Dialect) (components : Bool) (text : String) :
    (bodyTree dialect components text).isParent ∧
      (bodyTree dialect components text).Throughout Node.Fresh := by
  unfold bodyTree
  split
  · next h => exact fresh_treeOfTokens h
  · exact ⟨rfl, ⟨trivial, rfl⟩, trivial⟩

/-! ## Pages -/

/-- What a page is made of: its header, the slug that the header or the name gives, and the tree of
its body. -/
theorem readPage_ok {reading : Reading} {path : Files.Path} {text : String} {page : Page}
    (h : readPage reading path text = .ok page) :
    page.path = path ∧ slugOf page.fields path = .ok page.slug ∧
      ∃ dialect components body, page.tree = bodyTree dialect components body := by
  obtain ⟨⟨fields, body⟩, -, h⟩ := bind_eq_ok.mp h
  dsimp only at h
  split at h
  · cases h
  · next dialect _ =>
    obtain ⟨slug, hs, h⟩ := bind_eq_ok.mp h
    cases h
    exact ⟨rfl, hs, dialect, _, body, rfl⟩

theorem fresh_readPage {reading : Reading} {path : Files.Path} {text : String} {page : Page}
    (h : readPage reading path text = .ok page) :
    page.tree.isParent ∧ page.tree.Throughout Node.Fresh := by
  obtain ⟨-, -, dialect, components, body, htree⟩ := readPage_ok h
  rw [htree]
  exact fresh_bodyTree dialect components body

/-! ## Published documents -/

theorem dataFit_nil : DataFit [] := ⟨Or.inl rfl, Or.inl rfl⟩

theorem dataFit_withMedia (a : Asset) : DataFit (withMedia [] a) := by
  refine ⟨?_, Or.inl rfl⟩
  have hsource : mediaField (withMedia [] a) "source" =
      (a.media.source.map Value.str).getD .null := by
    simp [withMedia, Assoc.put, mediaField, Assoc.find?]
  rw [hsource]
  cases a.media.source with
  | none => exact Or.inl rfl
  | some s => exact Or.inr ⟨s, rfl⟩

/-- A node with the type of its kind and with data that fit their use. -/
def Fit (n : Node) : Prop := n.FitsType ∧ DataFit n.data

mutual

theorem fit_relinkNode (publish : String → Option Asset) :
    ∀ n : Node, n.Throughout Node.Fresh → (relinkNode publish n).Throughout Fit
  | .leaf type data body, h => by
    obtain ⟨htype, rfl⟩ : _ ∧ data = [] := h
    cases body with
    | directive name label attributes =>
      simp only [relinkNode, relinkLeaf]
      split
      · exact ⟨htype, dataFit_withMedia _⟩
      · exact ⟨htype, dataFit_nil⟩
    | image url alt title =>
      simp only [relinkNode, relinkLeaf]
      split
      · exact ⟨htype, dataFit_withMedia _⟩
      · exact ⟨htype, dataFit_nil⟩
    | _ => exact ⟨htype, dataFit_nil⟩
  | .parent type data body children, h => by
    obtain ⟨htype, rfl⟩ : _ ∧ data = [] := h.1
    have hchildren := fit_relinkNodes publish children h.2
    cases body with
    | component name props =>
      simp only [relinkNode, relinkParent]
      split
      · exact ⟨⟨htype, dataFit_withMedia _⟩, hchildren⟩
      · exact ⟨⟨htype, dataFit_nil⟩, hchildren⟩
    | _ => exact ⟨⟨htype, dataFit_nil⟩, hchildren⟩

theorem fit_relinkNodes (publish : String → Option Asset) :
    ∀ ns : List Node, Node.ThroughoutAll Node.Fresh ns →
      Node.ThroughoutAll Fit (relinkNodes publish ns)
  | [], _ => trivial
  | n :: ns, h => ⟨fit_relinkNode publish n h.1, fit_relinkNodes publish ns h.2⟩

end

theorem fit_relink (publish : String → Option Asset) {d : Draft} (hroot : d.tree.isParent)
    (h : d.tree.Throughout Node.Fresh) :
    (relink publish d).tree.isParent ∧ (relink publish d).tree.Throughout Fit := by
  obtain ⟨path, tree, fields⟩ := d
  cases tree with
  | leaf => cases hroot
  | parent type data body children =>
    obtain ⟨htype, rfl⟩ : _ ∧ data = [] := h.1
    have htype' : (Node.parent type [] body (relinkNodes publish children)).FitsType := by
      cases body <;> exact htype
    exact ⟨rfl, ⟨htype', dataFit_nil⟩, fit_relinkNodes publish children h.2⟩

/-- The tree of a document that was read can be expanded, whatever was published for it. -/
theorem expandFault?_relink {reading : Reading} {path : Files.Path} {text : String} {page : Page}
    (h : readPage reading path text = .ok page) (publish : String → Option Asset)
    (fields : Option HeaderFields) (videoAttrs : String) :
    expandFault? videoAttrs (relink publish ⟨page.path, page.tree, fields⟩).tree = none := by
  have hfresh := fresh_readPage h
  obtain ⟨hroot, hfit⟩ := fit_relink publish (d := ⟨page.path, page.tree, fields⟩) hfresh.1 hfresh.2
  exact (expand_becomes videoAttrs _ hroot).2 (Node.Throughout.imp (fun _ hn => hn.1) _ hfit)
    (Node.Throughout.imp (fun _ hn => hn.2) _ hfit)

end Document

end DocumentMedia
