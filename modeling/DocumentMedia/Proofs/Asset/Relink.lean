import DocumentMedia.Asset.Surface
import DocumentMedia.Proofs.Tree.Visit
import DocumentMedia.Proofs.Value.Entries
import Mathlib.Data.List.Basic

/-! # Relinking

A relinked tree has the nodes of the tree before, each relinked. So every reference of a relinked
document is the public path of what it was published as, or as it was written. -/
namespace DocumentMedia.Asset

open DocumentMedia.Files DocumentMedia.Document

variable {publish publish' : String → Option Asset}

theorem relinkNodes_eq_map (publish : String → Option Asset) (ns : List Node) :
    relinkNodes publish ns = ns.map (relinkNode publish) := by
  induction ns with
  | nil => rfl
  | cons n ns ih => rw [relinkNodes, ih, List.map_cons]

theorem children_relinkLeaf (type : String) (data : Fields) (body : Leaf) :
    (relinkLeaf publish (.leaf type data body)).children = [] := by
  cases body <;> simp only [relinkLeaf] <;> (try split) <;> rfl

theorem children_relinkParent (type : String) (data : Fields) (body : Container)
    (cs : List Node) : (relinkParent publish (.parent type data body cs)).children = cs := by
  cases body <;> simp only [relinkParent] <;> (try split) <;> rfl

theorem children_relinkNode (n : Node) :
    (relinkNode publish n).children = n.children.map (relinkNode publish) := by
  cases n with
  | leaf type data body => rw [relinkNode, children_relinkLeaf, Node.children, List.map_nil]
  | parent type data body cs =>
    rw [relinkNode, children_relinkParent, relinkNodes_eq_map, Node.children]

theorem iterFrom_relinkNodes (ns : List Node) :
    iterFrom (fun _ => true) (ns.map (relinkNode publish)) =
      (iterFrom (fun _ => true) ns).map (relinkNode publish) := by
  induction ns using iterFrom.induct fun _ => true with
  | case1 => simp [iterFrom]
  | case3 n rest _ hn => exact absurd rfl hn
  | case2 n rest _ hn ih =>
    rw [List.map_append, iterFrom_append, iterFrom_append, List.map_append] at ih
    rw [List.map_cons, iterFrom_cons, iterFrom_cons, children_relinkNode, ih, List.map_cons,
      List.map_append]

theorem iterNodes_relink (d : Draft) :
    iterNodes (fun _ => true) (relink publish d).tree =
      (iterNodes (fun _ => true) d.tree).map (relinkNode publish) := by
  unfold iterNodes relink
  rw [← iterFrom_relinkNodes]
  cases d.tree with
  | leaf type data body => rfl
  | parent type data body cs => rw [Node.withChildren, Node.children, relinkNodes_eq_map]

/-! ## Sources -/

/-- The text that stands for a reference after relinking. -/
def shown (publish : String → Option Asset) (raw : String) : String :=
  match publish raw with
  | some a => a.publicPath
  | none => raw

theorem shown_of_some {raw : String} {a : Asset} (h : publish raw = some a) :
    shown publish raw = a.publicPath := by
  simp [shown, h]

theorem shown_of_none {raw : String} (h : publish raw = none) : shown publish raw = raw := by
  simp [shown, h]

theorem find?_setFirst (value : String) (props : List Property) (p : Property)
    (h : prop? props "src" = some p) :
    prop? (setFirst "src" value props) "src" = some ⟨"src", some (.text value)⟩ := by
  induction props with
  | nil => cases h
  | cons q props ih =>
    by_cases hq : q.name = "src"
    · simp [prop?, setFirst, hq]
    · simp only [prop?, setFirst, hq, if_false, List.find?_cons, decide_false] at h ⊢
      exact ih h

theorem prop?_append {props more : List Property} {name : String} {p : Property}
    (h : prop? props name = some p) : prop? (props ++ more) name = some p := by
  simp only [prop?] at h ⊢
  rw [List.find?_append, h, Option.some_or]

theorem directiveSource?_relinkNode (n : Node) :
    directiveSource? (relinkNode publish n) = (directiveSource? n).map (shown publish) := by
  cases n with
  | parent type data body cs =>
    cases body <;> simp only [relinkNode, relinkParent] <;> (try split) <;> rfl
  | leaf type data body =>
    cases body with
    | directive name label attributes =>
      simp only [relinkNode, relinkLeaf]
      cases hs : directiveSource? (.leaf type data (.directive name label attributes)) with
      | none => simpa using hs
      | some raw =>
        simp only [Option.bind_eq_bind, Option.bind_some, Option.map_some]
        cases hp : publish raw with
        | none => rw [shown_of_none hp]; exact hs
        | some a =>
          rw [shown_of_some hp]
          simp only [directiveSource?] at hs ⊢
          split at hs
          · next ht => rw [if_pos ht, Assoc.find?_put, if_pos (beq_self_eq_true _)]
          · cases hs
    | image url alt title =>
      simp only [relinkNode, relinkLeaf]
      split <;> rfl
    | _ => rfl

theorem imageSource?_relinkNode (n : Node) :
    imageSource? (relinkNode publish n) = (imageSource? n).map (shown publish) := by
  cases n with
  | parent type data body cs =>
    cases body <;> simp only [relinkNode, relinkParent] <;> (try split) <;> rfl
  | leaf type data body =>
    cases body with
    | image url alt title =>
      simp only [relinkNode, relinkLeaf]
      by_cases ht : type = "image"
      · subst ht
        cases hp : publish url with
        | none => simp [imageSource?, hp, shown_of_none hp]
        | some a => simp [imageSource?, hp, shown_of_some hp]
      · have hn : imageSource? (.leaf type data (.image url alt title)) = none := by
          simp [imageSource?, ht]
        simp [hn]
    | directive name label attributes =>
      simp only [relinkNode, relinkLeaf]
      split <;> simp [imageSource?]
    | _ => simp [relinkNode, relinkLeaf, imageSource?]

theorem componentSource?_relinkNode (n : Node) :
    componentSource? (relinkNode publish n) = (componentSource? n).map (shown publish) := by
  cases n with
  | leaf type data body =>
    cases body <;> simp only [relinkNode, relinkLeaf] <;> (try split) <;> rfl
  | parent type data body cs =>
    cases body with
    | component name props =>
      have hc : componentSource? (.parent type data (.component name props)
          (relinkNodes publish cs)) =
          componentSource? (.parent type data (.component name props) cs) :=
        rfl
      simp only [relinkNode, relinkParent, hc]
      cases hs : componentSource? (.parent type data (.component name props) cs) with
      | none => exact hc.trans hs
      | some raw =>
        simp only [Option.bind_eq_bind, Option.bind_some, Option.map_some]
        cases hp : publish raw with
        | none => rw [shown_of_none hp]; exact hc.trans hs
        | some a =>
          rw [shown_of_some hp]
          simp only [componentSource?] at hs ⊢
          split at hs
          · next ht =>
            obtain ⟨p, hp', -⟩ := Option.bind_eq_some_iff.mp hs
            rw [if_pos ht, prop?_append (find?_setFirst a.publicPath props p hp')]
            rfl
          · cases hs
    | _ => rfl

theorem headerImage?_relinkFields (fields : Option HeaderFields) :
    headerImage? (relinkFields publish fields) = (headerImage? fields).map (shown publish) := by
  cases fields with
  | none => rfl
  | some es =>
    unfold relinkFields
    cases hs : headerImage? (some es) with
    | none => simpa using hs
    | some raw =>
      simp only [Option.bind_eq_bind, Option.bind_some, Option.map_some]
      cases hp : publish raw with
      | none => rw [shown_of_none hp]; exact hs
      | some a =>
        rw [shown_of_some hp]
        simp [headerImage?, Value.under?_putEntry]

/-- The references of a relinked document stand where those of the document stood. -/
theorem references_relink (d : Draft) :
    references ⟨d.path, (relink publish d).tree, (relink publish d).fields⟩ =
      (references d).map (shown publish) := by
  have hsource : ∀ source? : Node → Option String,
      (∀ n, source? (relinkNode publish n) = (source? n).map (shown publish)) →
      ∀ ns : List Node, (ns.map (relinkNode publish)).filterMap source? =
        (ns.filterMap source?).map (shown publish) := by
    intro source? hs ns
    rw [List.filterMap_map, List.map_filterMap]
    exact List.filterMap_congr fun n _ => hs n
  have hheader := @headerImage?_relinkFields publish d.fields
  simp only [references, iterNodes_relink, List.map_append,
    hsource _ directiveSource?_relinkNode, hsource _ imageSource?_relinkNode,
    hsource _ componentSource?_relinkNode]
  rw [show (relink publish d).fields = relinkFields publish d.fields from rfl, hheader]
  cases headerImage? d.fields <;> rfl

/-! ## What relinking depends on -/

def sources (n : Node) : List String :=
  (directiveSource? n).toList ++ (imageSource? n).toList ++ (componentSource? n).toList

theorem mem_references {d : Draft} {raw : String} :
    raw ∈ references d ↔ headerImage? d.fields = some raw ∨
      ∃ n ∈ iterNodes (fun _ => true) d.tree, raw ∈ sources n := by
  simp only [references, sources, List.mem_append, Option.mem_toList, List.mem_filterMap]
  constructor
  · rintro (((h | ⟨n, hn, h⟩) | ⟨n, hn, h⟩) | ⟨n, hn, h⟩)
    · exact Or.inl h
    · exact Or.inr ⟨n, hn, Or.inl (Or.inl h)⟩
    · exact Or.inr ⟨n, hn, Or.inl (Or.inr h)⟩
    · exact Or.inr ⟨n, hn, Or.inr h⟩
  · rintro (h | ⟨n, hn, (h | h) | h⟩)
    · exact Or.inl (Or.inl (Or.inl h))
    · exact Or.inl (Or.inl (Or.inr ⟨n, hn, h⟩))
    · exact Or.inl (Or.inr ⟨n, hn, h⟩)
    · exact Or.inr ⟨n, hn, h⟩

theorem bind_congr {source : Option String} (h : ∀ raw ∈ source, publish raw = publish' raw) :
    (source >>= publish) = source >>= publish' := by
  cases source with
  | none => rfl
  | some raw => exact h raw rfl

theorem relinkLeaf_congr {type : String} {data : Fields} {body : Leaf}
    (h : ∀ raw ∈ sources (.leaf type data body), publish raw = publish' raw) :
    relinkLeaf publish (.leaf type data body) = relinkLeaf publish' (.leaf type data body) := by
  cases body with
  | directive name label attributes =>
    simp only [relinkLeaf]
    rw [bind_congr fun raw hr => h raw (by simp [sources, Option.mem_def.mp hr])]
  | image url alt title =>
    simp only [relinkLeaf]
    rw [bind_congr fun raw hr => h raw (by simp [sources, Option.mem_def.mp hr])]
  | _ => rfl

theorem relinkParent_congr {type : String} {data : Fields} {body : Container} {cs : List Node}
    (h : ∀ raw ∈ sources (.parent type data body cs), publish raw = publish' raw) :
    relinkParent publish (.parent type data body cs) =
      relinkParent publish' (.parent type data body cs) := by
  cases body with
  | component name props =>
    simp only [relinkParent]
    rw [bind_congr fun raw hr => h raw (by simp [sources, Option.mem_def.mp hr])]
  | _ => rfl

theorem sources_children (type : String) (data : Fields) (body : Container) (cs cs' : List Node) :
    sources (.parent type data body cs) = sources (.parent type data body cs') := by
  cases body <;> rfl

theorem relinkNodes_congr (ns : List Node)
    (h : ∀ n ∈ iterFrom (fun _ => true) ns, ∀ raw ∈ sources n, publish raw = publish' raw) :
    relinkNodes publish ns = relinkNodes publish' ns := by
  match ns with
  | [] => rfl
  | .leaf type data body :: ns =>
    rw [iterFrom_cons] at h
    have hrest := relinkNodes_congr ns fun m hm => h m (by simp [hm])
    rw [relinkNodes, relinkNodes, hrest, relinkNode, relinkNode,
      relinkLeaf_congr (h _ List.mem_cons_self)]
  | .parent type data body cs :: ns =>
    rw [iterFrom_cons] at h
    have hrest := relinkNodes_congr ns fun m hm => h m (by simp [hm])
    have hcs := relinkNodes_congr cs fun m hm => h m (by simp [Node.children, hm])
    have hn := h _ List.mem_cons_self
    rw [sources_children type data body cs (relinkNodes publish' cs)] at hn
    rw [relinkNodes, relinkNodes, hrest, relinkNode, relinkNode, hcs, relinkParent_congr hn]

/-- A relinked document depends only on what its own references are published as. -/
theorem relink_congr {d : Draft} (h : ∀ raw ∈ references d, publish raw = publish' raw) :
    relink publish d = relink publish' d := by
  have htree : relinkNodes publish d.tree.children = relinkNodes publish' d.tree.children :=
    relinkNodes_congr _ fun n hn raw hr => h raw (mem_references.mpr (Or.inr ⟨n, hn, hr⟩))
  have hfields : relinkFields publish d.fields = relinkFields publish' d.fields := by
    unfold relinkFields
    rw [bind_congr fun raw hr => h raw (mem_references.mpr (Or.inl hr))]
  have hassets : (references d).filterMap publish = (references d).filterMap publish' :=
    List.filterMap_congr h
  simp only [relink, htree, hfields, hassets]

theorem relinkNodes_none (ns : List Node) : relinkNodes (fun _ => none) ns = ns := by
  match ns with
  | [] => rfl
  | .leaf type data body :: ns =>
    have hleaf : relinkLeaf (fun _ => none) (.leaf type data body) = .leaf type data body := by
      cases body <;> simp [relinkLeaf]
    rw [relinkNodes, relinkNodes_none ns, relinkNode, hleaf]
  | .parent type data body cs :: ns =>
    have hparent : relinkParent (fun _ => none) (.parent type data body cs) =
        .parent type data body cs := by
      cases body <;> simp [relinkParent]
    rw [relinkNodes, relinkNodes_none ns, relinkNode, relinkNodes_none cs, hparent]

theorem relink_of_none {d : Draft} (h : ∀ raw ∈ references d, publish raw = none) :
    relink publish d = ⟨d.tree, d.fields, []⟩ := by
  have hd : d.tree.withChildren d.tree.children = d.tree := by
    cases d.tree <;> rfl
  rw [relink_congr h]
  simp [relink, relinkNodes_none, hd, relinkFields]

/-! ## Misfits -/

def isMisfit (n : Node) : Bool := isMisfitDirective n || isMisfitImage n || isMisfitComponent n

theorem isMisfit_relinkNode (n : Node) : isMisfit (relinkNode publish n) = isMisfit n := by
  cases n with
  | leaf type data body =>
    cases body <;> simp only [relinkNode, relinkLeaf] <;> (try split) <;> rfl
  | parent type data body cs =>
    cases body <;> simp only [relinkNode, relinkParent] <;> (try split) <;> rfl

theorem beforeMisfit?_eq_none {d : Draft} :
    beforeMisfit? d = none ↔ ∀ n ∈ iterNodes (fun _ => true) d.tree, isMisfit n = false := by
  simp only [beforeMisfit?, isMisfit, Bool.or_eq_false_iff]
  constructor
  · intro h
    split at h
    · cases h
    · next hd =>
      split at h
      · cases h
      · next hi =>
        split at h
        · cases h
        · next hc =>
          simp only [List.any_eq_true, not_exists, not_and, Bool.not_eq_true] at hd hi hc
          exact fun n hn => ⟨⟨hd n hn, hi n hn⟩, hc n hn⟩
  · intro h
    rw [if_neg, if_neg, if_neg]
    · simpa using fun n hn => (h n hn).2
    · simpa using fun n hn => (h n hn).1.2
    · simpa using fun n hn => (h n hn).1.1

theorem beforeMisfit?_relink {d : Draft} (h : beforeMisfit? d = none) :
    beforeMisfit? ⟨d.path, (relink publish d).tree, (relink publish d).fields⟩ = none := by
  rw [beforeMisfit?_eq_none] at h ⊢
  intro n hn
  rw [iterNodes_relink] at hn
  obtain ⟨m, hm, rfl⟩ := List.mem_map.mp hn
  rw [isMisfit_relinkNode]
  exact h m hm

end DocumentMedia.Asset
