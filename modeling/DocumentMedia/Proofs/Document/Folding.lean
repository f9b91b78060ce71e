import DocumentMedia.Document.TokenTree
import DocumentMedia.Proofs.Document.Expansion
import DocumentMedia.Proofs.Outcome

/-! # Folds of tokens

What the fold of tokens keeps of its open parents and of the nodes that it makes. An invariant says
what each of its actions does; the fold and the tree of a document follow once and for all. -/
namespace DocumentMedia

theorem Node.throughoutAll_iff {P : Node → Prop} {ns : List Node} :
    ThroughoutAll P ns ↔ ∀ n ∈ ns, n.Throughout P := by
  induction ns with
  | nil => exact ⟨fun _ => nofun, fun _ => trivial⟩
  | cons n ns ih => rw [ThroughoutAll, ih, List.forall_mem_cons]

namespace Document

open DocumentMedia.Markdown

/-! ## Components in markup -/

theorem built_of_element {flow : Bool} {markup : List Char} {n : Node}
    (h : Component.element? flow markup = some n) :
    ∃ name props inner, n = Component.build flow name props inner := by
  unfold Component.element? at h
  split at h
  · split at h
    · simp only at h
      split at h
      · cases h
      · split at h
        · cases h
          exact ⟨_, _, _, rfl⟩
        · split at h
          · cases h
            exact ⟨_, _, _, rfl⟩
          · cases h
    · cases h
  · cases h

theorem built_of_elements {flow : Bool} {ls : List (List Char)} {ns : List Node}
    (h : ls.mapM (Component.element? flow) = some ns) :
    ∀ n ∈ ns, ∃ name props inner, n = Component.build flow name props inner := by
  induction ls generalizing ns with
  | nil =>
    cases h
    nofun
  | cons l ls ih =>
    rw [List.mapM_cons] at h
    cases hl : Component.element? flow l with
    | none => rw [hl] at h; cases h
    | some n =>
      cases hls : ls.mapM (Component.element? flow) with
      | none => rw [hl, hls] at h; cases h
      | some ms =>
        rw [hl, hls] at h
        cases h
        exact List.forall_mem_cons.mpr ⟨built_of_element hl, ih hls⟩

theorem built_of_nodes {flow : Bool} {markup : List Char} {ns : List Node}
    (h : Component.nodes? flow markup = some ns) :
    ∀ n ∈ ns, ∃ name props inner, n = Component.build flow name props inner := by
  unfold Component.nodes? at h
  split at h
  · next n hn =>
    cases h
    intro m hm
    rw [List.mem_singleton.mp hm]
    exact built_of_element hn
  · simp only at h
    split at h
    · cases h
    · exact built_of_elements h

/-! ## Invariants -/

/-- Holds of the open parents and of the nodes of a fold: of those that it makes out of a token, and
still after each thing that it does to them. -/
structure FoldInvariant (Open : OpenNode → Prop) (Made : Node → Prop) : Prop where
  holder : ∀ type, Open ⟨type, .root, [], false⟩
  opened : ∀ t, Open (openNode t)
  children : ∀ {o}, Open o → ∀ n ∈ o.children, Made n
  closed : ∀ {o}, Open o → Made o.close
  leaf : ∀ {type body}, (Node.leaf type [] body).FitsType → Made (.leaf type [] body)
  built : ∀ flow name props inner, Made (Component.build flow name props inner)
  append : ∀ {o n}, Open o → Made n → Open (o.append n)
  push : ∀ {o n}, Open o → Made n → n.isText = false → Open { o with children := n :: o.children }
  pop : ∀ {o}, Open o → Open { o with children := o.children.drop 1 }
  detach : ∀ {o}, Open o → Open { o with detached := true }

namespace FoldInvariant

variable {Open : OpenNode → Prop} {Made : Node → Prop} (hI : FoldInvariant Open Made)
include hI

theorem components {flow : Bool} {markup : List Char} {ns : List Node}
    (h : Component.nodes? flow markup = some ns) : ∀ n ∈ ns, Made n ∧ n.isText = false := by
  intro n hn
  obtain ⟨name, props, inner, rfl⟩ := built_of_nodes h n hn
  exact ⟨hI.built flow name props inner, rfl⟩

theorem markupNodes (components flow : Bool) (markup : String) :
    ∀ n ∈ markupNodes components flow markup, Made n ∧ n.isText = false := by
  simp only [Document.markupNodes]
  cases hp : (if components then Component.nodes? flow markup.toList else none) with
  | none =>
    intro n hn
    rw [List.mem_singleton.mp hn]
    exact ⟨hI.leaf trivial, rfl⟩
  | some ns =>
    split at hp
    · exact hI.components hp
    · cases hp

theorem inlineNodes (components : Bool) (t : Token) :
    ∀ n ∈ inlineNodes components t, Made n := by
  unfold Document.inlineNodes
  split
  case h_6 => exact fun n hn => (hI.markupNodes components false t.content n hn).1
  case h_5 =>
    intro n hn
    rw [List.mem_singleton.mp hn]
    exact hI.leaf List.mem_cons_self
  all_goals
    intro n hn
    rw [List.mem_singleton.mp hn]
    exact hI.leaf trivial

theorem blockNodes (components : Bool) (t : Token) :
    ∀ n ∈ blockNodes components t, Made n ∧ n.isText = false := by
  unfold Document.blockNodes
  split
  case h_4 => exact hI.markupNodes components true t.content
  case h_5 =>
    intro n hn
    rw [List.mem_singleton.mp hn]
    exact ⟨hI.leaf (List.mem_cons_of_mem _ List.mem_cons_self), rfl⟩
  case h_6 => nofun
  all_goals
    intro n hn
    rw [List.mem_singleton.mp hn]
    exact ⟨hI.leaf trivial, rfl⟩

theorem appendAll {o : OpenNode} (ho : Open o) {ns : List Node} (hns : ∀ n ∈ ns, Made n) :
    Open (ns.foldl OpenNode.append o) := by
  induction ns generalizing o with
  | nil => exact ho
  | cons n ns ih =>
    rw [List.forall_mem_cons] at hns
    exact ih (hI.append ho hns.1) hns.2

theorem pushAll {o : OpenNode} (ho : Open o) {ns : List Node}
    (hns : ∀ n ∈ ns, Made n ∧ n.isText = false) :
    Open { o with children := ns ++ o.children } := by
  induction ns with
  | nil => exact ho
  | cons n ns ih =>
    rw [List.forall_mem_cons] at hns
    exact hI.push (ih hns.2) hns.1.1 hns.1.2

theorem closeAll {top : OpenNode} {below : List OpenNode} (ht : Open top)
    (hb : ∀ o ∈ below, Open o) : Open (closeAll top below) := by
  induction below generalizing top with
  | nil => exact ht
  | cons p rest ih =>
    rw [List.forall_mem_cons] at hb
    unfold Document.closeAll
    refine ih ?_ hb.2
    split
    · exact hb.1
    · exact hI.push hb.1 (hI.closed ht) rfl

/-! ## Folds -/

theorem inlineStep {components : Bool} {stack : OpenNode × List OpenNode}
    (h : Open stack.1 ∧ ∀ o ∈ stack.2, Open o) (t : Token) :
    Open (inlineStep components stack t).1 ∧ ∀ o ∈ (inlineStep components stack t).2, Open o := by
  obtain ⟨top, below⟩ := stack
  obtain ⟨ht, hb⟩ := h
  unfold Document.inlineStep
  dsimp only
  split
  · exact ⟨hI.opened t, List.forall_mem_cons.mpr ⟨ht, hb⟩⟩
  · split
    · exact ⟨ht, nofun⟩
    · rw [List.forall_mem_cons] at hb
      exact ⟨hI.append hb.1 (hI.closed ht), hb.2⟩
  · exact ⟨hI.appendAll ht (hI.inlineNodes components t), hb⟩

theorem inlineFold (components : Bool) (ts : List Token) (stack : OpenNode × List OpenNode)
    (h : Open stack.1 ∧ ∀ o ∈ stack.2, Open o) :
    Open (ts.foldl (Document.inlineStep components) stack).1 ∧
      ∀ o ∈ (ts.foldl (Document.inlineStep components) stack).2, Open o := by
  induction ts generalizing stack with
  | nil => exact h
  | cons t ts ih => exact ih _ (hI.inlineStep h t)

theorem inlineContent (components : Bool) (ts : List Token) :
    ∀ n ∈ inlineContent components ts, Made n := by
  have hend := hI.inlineFold components ts (⟨"inline", .root, [], false⟩, [])
    ⟨hI.holder "inline", nofun⟩
  exact fun n hn => hI.children (hI.closeAll hend.1 hend.2) n (List.mem_reverse.mp hn)

theorem flowOf {components : Bool} {top : OpenNode} {t : BlockToken} {flow : List Node}
    (h : flowOf components top t = some flow) : ∀ n ∈ flow, Made n ∧ n.isText = false := by
  unfold Document.flowOf at h
  split at h
  · split at h
    · exact hI.components h
    · cases h
  · cases h

theorem replaceTop {top parent : OpenNode} {flow : List Node} {rest : Stack} (ht : Open top)
    (hp : Open parent) (hr : ∀ o ∈ rest, Open o)
    (hf : ∀ n ∈ flow, Made n ∧ n.isText = false) :
    ∀ o ∈ replaceTop top parent flow rest, Open o := by
  have hsiblings : Open { parent with
      children := if top.detached then parent.children.drop 1 else parent.children } := by
    split
    · exact hI.pop hp
    · exact hp
  have hrow := hI.pushAll hsiblings fun n hn => hf n (List.mem_reverse.mp hn)
  exact List.forall_mem_cons.mpr ⟨hI.detach ht, List.forall_mem_cons.mpr ⟨hrow, hr⟩⟩

theorem textStep {components : Bool} {stack stack' : Stack} {t : BlockToken}
    (h : ∀ o ∈ stack, Open o) (hs : textStep components stack t = .ok stack') :
    ∀ o ∈ stack', Open o := by
  unfold Document.textStep at hs
  split at hs
  · split at hs
    · cases hs
    · cases hs
      nofun
  · next top below =>
    rw [List.forall_mem_cons] at h
    split at hs
    · next hflow =>
      cases hs
      rw [List.forall_mem_cons] at h
      exact hI.replaceTop h.1 h.2.1 h.2.2 (hI.flowOf hflow)
    · cases hs
      exact List.forall_mem_cons.mpr
        ⟨hI.appendAll h.1 (hI.inlineContent components t.inlines), h.2⟩

theorem blockStep {components : Bool} {root root' : Option OpenNode × Stack} {t : BlockToken}
    (h : (∀ o ∈ root.1, Open o) ∧ ∀ o ∈ root.2, Open o)
    (hs : blockStep components root t = .ok root') :
    (∀ o ∈ root'.1, Open o) ∧ ∀ o ∈ root'.2, Open o := by
  obtain ⟨done, stack⟩ := root
  obtain ⟨hd, hstack⟩ := h
  unfold Document.blockStep at hs
  dsimp only at hs hstack
  split at hs
  · split at hs
    · cases hs
    · cases hs
      exact ⟨hd, List.forall_mem_cons.mpr ⟨hI.opened _, hstack⟩⟩
  · split at hs
    · cases hs
    · cases hs
      refine ⟨?_, nofun⟩
      rintro o ⟨⟩
      exact hstack _ List.mem_cons_self
    · next top p rest =>
      rw [List.forall_mem_cons, List.forall_mem_cons] at hstack
      obtain ⟨ht, hp, hr⟩ := hstack
      split at hs
      · cases hs
        exact ⟨hd, List.forall_mem_cons.mpr ⟨hp, hr⟩⟩
      · cases hs
        exact ⟨hd, List.forall_mem_cons.mpr ⟨hI.push hp (hI.closed ht) rfl, hr⟩⟩
  · split at hs
    · obtain ⟨stack', htext, hs⟩ := map_eq_ok.mp hs
      cases hs
      exact ⟨hd, hI.textStep hstack htext⟩
    · split at hs
      · cases hs
      · cases hs
        rw [List.forall_mem_cons] at hstack
        refine ⟨hd, List.forall_mem_cons.mpr ⟨hI.pushAll hstack.1 fun n hn => ?_, hstack.2⟩⟩
        exact hI.blockNodes components _ n (List.mem_reverse.mp hn)

theorem blockFold {components : Bool} (ts : List BlockToken)
    {root root' : Option OpenNode × Stack} (h : (∀ o ∈ root.1, Open o) ∧ ∀ o ∈ root.2, Open o)
    (hs : ts.foldlM (Document.blockStep components) root = .ok root') :
    (∀ o ∈ root'.1, Open o) ∧ ∀ o ∈ root'.2, Open o := by
  induction ts generalizing root with
  | nil =>
    cases hs
    exact h
  | cons t ts ih =>
    rw [List.foldlM_cons] at hs
    obtain ⟨u, hstep, hs⟩ := bind_eq_ok.mp hs
    exact ih (hI.blockStep h hstep) hs

/-- The tree of a document is the root of its fold. -/
theorem treeOfTokens {components : Bool} {ts : List BlockToken} {tree : Node}
    (h : treeOfTokens components ts = .ok tree) : tree.isParent ∧ Made tree := by
  obtain ⟨⟨done, stack⟩, hr, h⟩ := bind_eq_ok.mp h
  dsimp only at h
  have hstart : ∀ o ∈ [(⟨"root", .root, [], false⟩ : OpenNode)], Open o := by
    intro o ho
    rw [List.mem_singleton.mp ho]
    exact hI.holder "root"
  have hnone : ∀ o ∈ (none : Option OpenNode), Open o := nofun
  have hopen := hI.blockFold ts ⟨hnone, hstart⟩ hr
  split at h
  · cases h
    exact ⟨rfl, hI.closed (hopen.1 _ rfl)⟩
  · cases h
    have hstack := List.forall_mem_cons.mp hopen.2
    exact ⟨rfl, hI.closed (hI.closeAll hstack.1 hstack.2)⟩
  · cases h
    exact ⟨rfl, hI.closed (hI.holder "root")⟩

end FoldInvariant

end Document

end DocumentMedia
