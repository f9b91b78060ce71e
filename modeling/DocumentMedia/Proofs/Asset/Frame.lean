import DocumentMedia.Proofs.Asset.Again

/-! # What publishing changes

Publishing a document changes its media references and nothing else. Each reference becomes the
public path of what it alone was published as; the node that holds it takes a note of that, and a
component also the size of its picture. The assets are those of the changed references, surface by
surface. -/
namespace DocumentMedia

namespace Assoc

variable {κ β : Type} [BEq κ] [LawfulBEq κ]

theorem split_of_find? {m : Assoc κ β} {k : κ} {v : β} (h : find? m k = some v) :
    ∃ before after, m = before ++ (k, v) :: after ∧ (∀ p ∈ before, p.1 ≠ k) ∧
      ∀ w, put m k w = before ++ (k, w) :: after := by
  induction m with
  | nil => cases h
  | cons p rest ih =>
    obtain ⟨j, u⟩ := p
    by_cases hj : j = k
    · subst hj
      simp only [find?, beq_self_eq_true, if_true, Option.some.injEq] at h
      subst h
      exact ⟨[], rest, rfl, List.forall_mem_nil _, fun w => by simp [put]⟩
    · simp only [find?, beq_iff_eq, hj, if_false] at h
      obtain ⟨before, after, rfl, hbefore, hput⟩ := ih h
      refine ⟨(j, u) :: before, after, rfl, List.forall_mem_cons.mpr ⟨hj, hbefore⟩, fun w => ?_⟩
      simp only [put, beq_iff_eq, hj, if_false, hput, List.cons_append]

theorem without_put (m : Assoc κ β) (k : κ) (v : β) : without (put m k v) k = without m k := by
  induction m with
  | nil => simp [put, without]
  | cons p rest ih =>
    obtain ⟨j, u⟩ := p
    simp only [without] at ih
    by_cases hj : j = k
    · subst hj
      simp [put, without]
    · simp [put, without, hj, ih]

end Assoc

namespace Asset

open DocumentMedia.Files DocumentMedia.Document

/-! ## Surfaces -/

/-- The kinds of nodes that refer to media, in the order in which they are published. -/
inductive Surface where
  | directive
  | image
  | component
  deriving DecidableEq

/-- A node refers to media by a text. -/
inductive Refers : Node → Surface → String → Prop where
  | directive {type name : String} {data attributes : Fields} {label : Option String}
      {raw : String} (htype : type ∈ directiveTypes) (hname : name = "img" ∨ name = "video")
      (hsrc : Assoc.find? attributes "src" = some (.str raw)) :
    Refers (.leaf type data (.directive name label attributes)) .directive raw
  | image {data : Fields} {url alt : String} {title : Option String} :
    Refers (.leaf "image" data (.image url alt title)) .image url
  | component {type name : String} {data : Fields} {props : List Property} {cs : List Node}
      {p : Property} {raw : String} (htype : type ∈ componentTypes)
      (hprop : prop? props "src" = some p) (hsrc : propertySource? p.value = some raw) :
    Refers (.parent type data (.component name props) cs) .component raw

def Surface.source? : Surface → Node → Option String
  | .directive => directiveSource?
  | .image => imageSource?
  | .component => componentSource?

theorem refers_iff {s : Surface} {n : Node} {raw : String} :
    Refers n s raw ↔ s.source? n = some raw := by
  constructor
  · intro h
    cases h with
    | directive htype hname hsrc =>
      simp [Surface.source?, directiveSource?, htype, isMediaName, hname, hsrc]
    | image => rfl
    | component htype hprop hsrc => simp [Surface.source?, componentSource?, htype, hprop, hsrc]
  · intro h
    cases s with
    | directive =>
      simp only [Surface.source?, directiveSource?] at h
      split at h
      · split at h
        · next hcond =>
          split at h
          · next hsrc =>
            cases h
            simp only [isMediaName, Bool.and_eq_true, Bool.or_eq_true, decide_eq_true_eq,
              List.contains_iff_mem] at hcond
            exact .directive hcond.1 hcond.2 hsrc
          · cases h
        · cases h
      · cases h
    | image =>
      simp only [Surface.source?, imageSource?] at h
      split at h
      · cases h
        exact .image
      · cases h
    | component =>
      simp only [Surface.source?, componentSource?] at h
      split at h
      · split at h
        · next hcond =>
          obtain ⟨p, hprop, hsrc⟩ := Option.bind_eq_some_iff.mp h
          exact .component (List.contains_iff_mem.mp hcond) hprop hsrc
        · cases h
      · cases h

/-! ## Changes -/

/-- A record of data with a note of what was published. -/
structure NotesMedia (data : Fields) (a : Asset) (data' : Fields) : Prop where
  media : Assoc.find? data' "media" = some (.media a.media)
  rest : Assoc.without data' "media" = Assoc.without data "media"

/-- A component takes the size of a picture that is known, unless it has one of its own. -/
structure TakesSize (props : List Property) (m : MediaMeta) (w h : Int) : Prop where
  kind : m.kind = "image"
  width : m.width = some w ∧ w ≠ 0
  height : m.height = some h ∧ h ≠ 0
  free : ∀ p ∈ props, p.name ≠ "width" ∧ p.name ≠ "height"

/-- What a component gets behind its attributes. -/
inductive Sizes (props : List Property) (m : MediaMeta) : List Property → Prop where
  | taken {w h : Int} (hsize : TakesSize props m w h) :
    Sizes props m [⟨"width", some (.text (toString w))⟩, ⟨"height", some (.text (toString h))⟩]
  | none (hsize : ∀ w h, ¬TakesSize props m w h) : Sizes props m []

/-- No reference of a node is published. -/
def Unpublished (publish : String → Option Asset) (n : Node) : Prop :=
  ∀ s raw, Refers n s raw → publish raw = none

mutual

/-- A node before and after its document is published, with what was published for it and below it,
in document order. -/
inductive RelinksNode (publish : String → Option Asset) :
    Node → Node → List (Surface × Asset) → Prop where
  | kept {type : String} {data : Fields} {body : Leaf}
      (h : Unpublished publish (.leaf type data body)) :
    RelinksNode publish (.leaf type data body) (.leaf type data body) []
  | directive {type name raw : String} {data data' before after : Fields} {label : Option String}
      {a : Asset}
      (h : Refers (.leaf type data (.directive name label (before ++ ("src", .str raw) :: after)))
        .directive raw)
      (hfirst : ∀ p ∈ before, p.1 ≠ "src") (hpublish : publish raw = some a)
      (hdata : NotesMedia data a data') :
    RelinksNode publish
      (.leaf type data (.directive name label (before ++ ("src", .str raw) :: after)))
      (.leaf type data' (.directive name label (before ++ ("src", .str a.publicPath) :: after)))
      [(.directive, a)]
  | image {raw alt : String} {data data' : Fields} {title : Option String} {a : Asset}
      (hpublish : publish raw = some a) (hdata : NotesMedia data a data') :
    RelinksNode publish (.leaf "image" data (.image raw alt title))
      (.leaf "image" data' (.image a.publicPath alt title)) [(.image, a)]
  | around {type : String} {data : Fields} {body : Container} {cs cs' : List Node}
      {changes : List (Surface × Asset)} (h : Unpublished publish (.parent type data body cs))
      (hrow : RelinksRow publish cs cs' changes) :
    RelinksNode publish (.parent type data body cs) (.parent type data body cs') changes
  | component {type name raw : String} {data data' : Fields} {before after size : List Property}
      {value : Option PropertyValue} {cs cs' : List Node} {changes : List (Surface × Asset)}
      {a : Asset}
      (h : Refers (.parent type data (.component name (before ++ ⟨"src", value⟩ :: after)) cs)
        .component raw)
      (hfirst : ∀ p ∈ before, p.name ≠ "src") (hpublish : publish raw = some a)
      (hdata : NotesMedia data a data')
      (hsize : Sizes (before ++ ⟨"src", value⟩ :: after) a.media size)
      (hrow : RelinksRow publish cs cs' changes) :
    RelinksNode publish
      (.parent type data (.component name (before ++ ⟨"src", value⟩ :: after)) cs)
      (.parent type data' (.component name
        (before ++ ⟨"src", some (.text a.publicPath)⟩ :: after ++ size)) cs')
      ((.component, a) :: changes)

inductive RelinksRow (publish : String → Option Asset) :
    List Node → List Node → List (Surface × Asset) → Prop where
  | nil : RelinksRow publish [] [] []
  | cons {n n' : Node} {ns ns' : List Node} {changes rest : List (Surface × Asset)}
      (hn : RelinksNode publish n n' changes) (hns : RelinksRow publish ns ns' rest) :
    RelinksRow publish (n :: ns) (n' :: ns') (changes ++ rest)

end

/-- The header of a document before and after, with what was published for its image. -/
inductive RelinksHeader (publish : String → Option Asset) :
    Option HeaderFields → Option HeaderFields → Option Asset → Prop where
  | kept {fields : Option HeaderFields}
      (h : ∀ raw, headerImage? fields = some raw → publish raw = none) :
    RelinksHeader publish fields fields none
  | image {before after : HeaderFields} {raw : String} {a : Asset}
      (hfirst : ∀ e ∈ before, e.1 ≠ .str "image") (hpublish : publish raw = some a) :
    RelinksHeader publish (some (before ++ (.str "image", .str raw) :: after))
      (some (before ++ (.str "image", .str a.publicPath) :: after)) (some a)

def assetsOf (s : Surface) (changes : List (Surface × Asset)) : List Asset :=
  changes.filterMap fun c => if c.1 = s then some c.2 else none

/-- A document before and after it is published. -/
inductive Relinks (publish : String → Option Asset) (d : Draft) : Localized → Prop where
  | intro {fields : Option HeaderFields} {header : Option Asset} {cs : List Node}
      {changes : List (Surface × Asset)} (hfields : RelinksHeader publish d.fields fields header)
      (hrow : RelinksRow publish d.tree.children cs changes) :
    Relinks publish d ⟨d.tree.withChildren cs, fields, header.toList ++
      assetsOf .directive changes ++ assetsOf .image changes ++ assetsOf .component changes⟩

/-! ## Relinked nodes -/

section

variable {publish : String → Option Asset}

/-- What is published for a node on one surface. -/
def changeOn (publish : String → Option Asset) (n : Node) (s : Surface) :
    List (Surface × Asset) :=
  ((s.source? n >>= publish).map fun a => (s, a)).toList

/-- What is published for a node itself. -/
def changesAt (publish : String → Option Asset) (n : Node) : List (Surface × Asset) :=
  changeOn publish n .directive ++ changeOn publish n .image ++ changeOn publish n .component

theorem Unpublished.bind_source? {n : Node} (h : Unpublished publish n) (s : Surface) :
    (s.source? n >>= publish) = none := by
  cases hs : s.source? n with
  | none => rfl
  | some raw => exact h s raw (refers_iff.mpr hs)

theorem exists_published {n : Node} (h : ¬Unpublished publish n) :
    ∃ s raw a, Refers n s raw ∧ publish raw = some a := by
  simp only [Unpublished, not_forall] at h
  obtain ⟨s, raw, hrefers, hpublish⟩ := h
  obtain ⟨a, ha⟩ := Option.ne_none_iff_exists'.mp hpublish
  exact ⟨s, raw, a, hrefers, ha⟩

theorem changesAt_of_unpublished {n : Node} (h : Unpublished publish n) :
    changesAt publish n = [] := by
  have hnone : ∀ s, changeOn publish n s = [] := by
    intro s
    rw [changeOn, h.bind_source? s]
    rfl
  simp only [changesAt, hnone, List.append_nil]

/-- A node refers to media on one surface only. -/
theorem Refers.source?_ne {n : Node} {s s' : Surface} {raw : String} (h : Refers n s raw)
    (hs : s' ≠ s) : s'.source? n = none := by
  cases hn : s'.source? n with
  | none => rfl
  | some raw' =>
    have h' := refers_iff.mpr hn
    cases h <;> cases h' <;> cases hs rfl

theorem changesAt_of_refers {n : Node} {s : Surface} {raw : String} {a : Asset}
    (h : Refers n s raw) (hpublish : publish raw = some a) : changesAt publish n = [(s, a)] := by
  have hown : changeOn publish n s = [(s, a)] := by
    simp only [changeOn, refers_iff.mp h, Option.bind_eq_bind, Option.bind_some, hpublish,
      Option.map_some, Option.toList_some]
  have hother : ∀ s' ≠ s, changeOn publish n s' = [] := by
    intro s' hs
    simp only [changeOn, h.source?_ne hs, Option.bind_eq_bind, Option.bind_none, Option.map_none,
      Option.toList_none]
  unfold changesAt
  cases s with
  | directive => rw [hown, hother .image nofun, hother .component nofun]; rfl
  | image => rw [hown, hother .directive nofun, hother .component nofun]; rfl
  | component => rw [hown, hother .directive nofun, hother .image nofun]; rfl

theorem assetsOf_changesAt (s : Surface) (n : Node) :
    assetsOf s (changesAt publish n) = (s.source? n >>= publish).toList := by
  have hon : ∀ s', assetsOf s (changeOn publish n s') =
      if s' = s then (s.source? n >>= publish).toList else [] := by
    intro s'
    unfold assetsOf changeOn
    by_cases hs : s' = s
    · subst hs
      cases s'.source? n >>= publish <;> simp
    · cases s'.source? n >>= publish <;> simp [hs]
  have happend : ∀ c c', assetsOf s (c ++ c') = assetsOf s c ++ assetsOf s c' := fun _ _ =>
    List.filterMap_append
  rw [changesAt, happend, happend, hon, hon, hon]
  cases s <;> simp

/-- The assets of a surface in document order. -/
theorem assetsOf_flatMap (s : Surface) (ns : List Node) :
    assetsOf s (ns.flatMap (changesAt publish)) = (ns.filterMap s.source?).filterMap publish := by
  induction ns with
  | nil => rfl
  | cons n ns ih =>
    have hhead : assetsOf s (changesAt publish n) = (s.source? n >>= publish).toList :=
      assetsOf_changesAt s n
    rw [List.flatMap_cons, assetsOf, List.filterMap_append, ← assetsOf, ← assetsOf, hhead, ih]
    cases hs : s.source? n with
    | none => simp [hs]
    | some raw => cases hp : publish raw <;> simp [hs, hp]

theorem notesMedia_withMedia (data : Fields) (a : Asset) : NotesMedia data a (withMedia data a) where
  media := by rw [withMedia, Assoc.find?_put, if_pos (beq_self_eq_true _)]
  rest := Assoc.without_put data "media" _

theorem split_of_prop? {props : List Property} {name : String} {p : Property}
    (h : prop? props name = some p) :
    ∃ before value after, p = ⟨name, value⟩ ∧ props = before ++ ⟨name, value⟩ :: after ∧
      (∀ q ∈ before, q.name ≠ name) ∧
      ∀ v, setFirst name v props = before ++ ⟨name, some (.text v)⟩ :: after := by
  induction props with
  | nil => cases h
  | cons q props ih =>
    obtain ⟨qname, value⟩ := q
    by_cases hq : qname = name
    · subst hq
      simp only [prop?, List.find?_cons, decide_true, Option.some.injEq] at h
      exact ⟨[], value, props, h.symm, rfl, List.forall_mem_nil _, fun v => by simp [setFirst]⟩
    · simp only [prop?, List.find?_cons, hq, decide_false] at h
      obtain ⟨before, value', after, hp, rfl, hbefore, hset⟩ := ih h
      refine ⟨⟨qname, value⟩ :: before, value', after, hp, rfl,
        List.forall_mem_cons.mpr ⟨hq, hbefore⟩, fun v => ?_⟩
      simp only [setFirst, hq, if_false, hset, List.cons_append]

theorem prop?_isNone_iff {props : List Property} {name : String} :
    (prop? props name).isNone ↔ ∀ p ∈ props, p.name ≠ name := by
  simp [prop?, List.find?_eq_none]

theorem sizes_sizeProps (props : List Property) (m : MediaMeta) :
    Sizes props m (sizeProps props m) := by
  unfold sizeProps
  split
  · next w h hw hh =>
    split
    · next hcond =>
      simp only [Bool.and_eq_true, decide_eq_true_eq, prop?_isNone_iff] at hcond
      obtain ⟨⟨⟨⟨hkind, hw0⟩, hh0⟩, hwidth⟩, hheight⟩ := hcond
      exact .taken ⟨hkind, ⟨hw, hw0⟩, ⟨hh, hh0⟩, fun p hp => ⟨hwidth p hp, hheight p hp⟩⟩
    · next hcond =>
      refine .none fun w' h' hsize => hcond ?_
      obtain ⟨rfl⟩ : w' = w := Option.some.inj (hsize.width.1.symm.trans hw)
      obtain ⟨rfl⟩ : h' = h := Option.some.inj (hsize.height.1.symm.trans hh)
      simp only [Bool.and_eq_true, decide_eq_true_eq, prop?_isNone_iff]
      exact ⟨⟨⟨⟨hsize.kind, hsize.width.2⟩, hsize.height.2⟩, fun p hp => (hsize.free p hp).1⟩,
        fun p hp => (hsize.free p hp).2⟩
  · next hnone => exact .none fun w h hsize => hnone w h hsize.width.1 hsize.height.1

/-! ## Relinked documents -/

theorem relinkLeaf_of_unpublished {type : String} {data : Fields} {body : Leaf}
    (h : Unpublished publish (.leaf type data body)) :
    relinkLeaf publish (.leaf type data body) = .leaf type data body := by
  cases body with
  | directive name label attributes =>
    have hnone : (directiveSource? (.leaf type data (.directive name label attributes)) >>=
        publish) = none := h.bind_source? .directive
    simp only [relinkLeaf, hnone]
  | image url alt title =>
    have hnone : (imageSource? (.leaf type data (.image url alt title)) >>= publish) = none :=
      h.bind_source? .image
    simp only [relinkLeaf, hnone]
  | _ => rfl

theorem relinkParent_of_unpublished {type : String} {data : Fields} {body : Container}
    {cs : List Node} (h : Unpublished publish (.parent type data body cs)) (cs' : List Node) :
    relinkParent publish (.parent type data body cs') = .parent type data body cs' := by
  cases body with
  | component name props =>
    have hnone : (componentSource? (.parent type data (.component name props) cs') >>= publish) =
        none := h.bind_source? .component
    simp only [relinkParent, hnone]
  | _ => rfl

theorem relinks_relinkLeaf {type : String} {data : Fields} {body : Leaf} {s : Surface}
    {raw : String} {a : Asset} (h : Refers (.leaf type data body) s raw)
    (hpublish : publish raw = some a) :
    RelinksNode publish (.leaf type data body) (relinkLeaf publish (.leaf type data body))
      [(s, a)] := by
  cases h with
  | @directive _ name _ attributes label _ htype hname hsrc =>
    have hrefers : Refers (.leaf type data (.directive name label attributes)) .directive raw :=
      .directive htype hname hsrc
    have hsource : directiveSource? (.leaf type data (.directive name label attributes)) =
        some raw := refers_iff.mp hrefers
    have hbind : (directiveSource? (.leaf type data (.directive name label attributes)) >>=
        publish) = some a := by
      rw [hsource]
      exact hpublish
    obtain ⟨before, after, hattributes, hbefore, hput⟩ := Assoc.split_of_find? hsrc
    simp only [relinkLeaf, hbind, hput]
    rw [hattributes] at hrefers ⊢
    exact .directive hrefers hbefore hpublish (notesMedia_withMedia data a)
  | @image _ _ alt title =>
    have hbind : (imageSource? (.leaf "image" data (.image raw alt title)) >>= publish) =
        some a := hpublish
    simp only [relinkLeaf, hbind]
    exact .image hpublish (notesMedia_withMedia data a)

theorem relinks_relinkParent {type : String} {data : Fields} {body : Container} {s : Surface}
    {raw : String} {a : Asset} {cs cs' : List Node} {changes : List (Surface × Asset)}
    (h : Refers (.parent type data body cs) s raw) (hpublish : publish raw = some a)
    (hrow : RelinksRow publish cs cs' changes) :
    RelinksNode publish (.parent type data body cs)
      (relinkParent publish (.parent type data body cs')) ((s, a) :: changes) := by
  cases h with
  | @component _ name _ props _ p _ htype hprop hsrc =>
    have hrefers : Refers (.parent type data (.component name props) cs) .component raw :=
      .component htype hprop hsrc
    have hsource : componentSource? (.parent type data (.component name props) cs') = some raw :=
      refers_iff.mp hrefers
    have hbind : (componentSource? (.parent type data (.component name props) cs') >>= publish) =
        some a := by
      rw [hsource]
      exact hpublish
    obtain ⟨before, value, after, rfl, hprops, hbefore, hset⟩ := split_of_prop? hprop
    have hsize := sizes_sizeProps props a.media
    simp only [relinkParent, hbind, hset]
    rw [hprops] at hrefers hsize ⊢
    exact .component hrefers hbefore hpublish (notesMedia_withMedia data a) hsize hrow

mutual

theorem relinks_relinkNode (publish : String → Option Asset) : ∀ n : Node,
    RelinksNode publish n (relinkNode publish n)
      ((iterFrom (fun _ => true) [n]).flatMap (changesAt publish))
  | .leaf type data body => by
    have hself : iterFrom (fun _ => true) [.leaf type data body] = [.leaf type data body] := by
      simp [iterFrom_cons, Node.children, iterFrom]
    rw [hself, List.flatMap_singleton, relinkNode]
    by_cases h : Unpublished publish (.leaf type data body)
    · rw [changesAt_of_unpublished h, relinkLeaf_of_unpublished h]
      exact .kept h
    · obtain ⟨s, raw, a, hrefers, hpublish⟩ := exists_published h
      rw [changesAt_of_refers hrefers hpublish]
      exact relinks_relinkLeaf hrefers hpublish
  | .parent type data body cs => by
    have hrow := relinks_relinkNodes publish cs
    have hself : iterFrom (fun _ => true) [.parent type data body cs] =
        .parent type data body cs :: iterFrom (fun _ => true) cs := by
      simp [iterFrom_cons, Node.children, iterFrom]
    rw [hself, List.flatMap_cons, relinkNode]
    by_cases h : Unpublished publish (.parent type data body cs)
    · rw [changesAt_of_unpublished h, relinkParent_of_unpublished h, List.nil_append]
      exact .around h hrow
    · obtain ⟨s, raw, a, hrefers, hpublish⟩ := exists_published h
      rw [changesAt_of_refers hrefers hpublish, List.singleton_append]
      exact relinks_relinkParent hrefers hpublish hrow

theorem relinks_relinkNodes (publish : String → Option Asset) : ∀ ns : List Node,
    RelinksRow publish ns (relinkNodes publish ns)
      ((iterFrom (fun _ => true) ns).flatMap (changesAt publish))
  | [] => by
    rw [iterFrom]
    exact .nil
  | n :: ns => by
    rw [← List.singleton_append, iterFrom_append, List.flatMap_append]
    exact .cons (relinks_relinkNode publish n) (relinks_relinkNodes publish ns)

end

theorem split_of_under? {es : HeaderFields} {name : String} {v : Value}
    (h : Value.under? es name = some v) :
    ∃ before after, es = before ++ (.str name, v) :: after ∧
      (∀ e ∈ before, e.1 ≠ .str name) ∧
      ∀ w, Value.putEntry es (.str name) w = before ++ (.str name, w) :: after := by
  induction es with
  | nil => cases h
  | cons e es ih =>
    obtain ⟨k, u⟩ := e
    rw [Value.under?_cons] at h
    by_cases hk : k.sameKey (.str name)
    · rw [if_pos hk, Option.some.injEq] at h
      subst h
      obtain rfl := Value.eq_of_sameKey_str hk
      exact ⟨[], es, rfl, nofun, fun w => by simp [Value.putEntry, hk]⟩
    · rw [if_neg hk] at h
      obtain ⟨before, after, rfl, hbefore, hput⟩ := ih h
      have hne : k ≠ .str name := by
        rintro rfl
        exact hk (by simp [Value.sameKey])
      refine ⟨(k, u) :: before, after, rfl, List.forall_mem_cons.mpr ⟨hne, hbefore⟩, fun w => ?_⟩
      simp [Value.putEntry, hk, hput]

theorem relinks_relinkFields (publish : String → Option Asset) (fields : Option HeaderFields) :
    RelinksHeader publish fields (relinkFields publish fields) (headerImage? fields >>= publish) := by
  cases hbind : headerImage? fields >>= publish with
  | none =>
    have hkept : relinkFields publish fields = fields := by
      cases fields <;> simp only [relinkFields, hbind]
    rw [hkept]
    refine .kept fun raw hraw => ?_
    rwa [hraw, Option.bind_eq_bind, Option.bind_some] at hbind
  | some a =>
    obtain ⟨raw, himage, hpublish⟩ := Option.bind_eq_some_iff.mp hbind
    cases fields with
    | none => cases himage
    | some es =>
      have hunder : Value.under? es "image" = some (.str raw) := by
        simp only [headerImage?, Option.bind_eq_bind, Option.bind_some] at himage
        split at himage
        · next hs =>
          cases himage
          exact hs
        · cases himage
      obtain ⟨before, after, hes, hbefore, hput⟩ := split_of_under? hunder
      simp only [relinkFields, hbind, hput]
      rw [hes]
      exact .image hbefore hpublish

theorem relinks_relink (publish : String → Option Asset) (d : Draft) :
    Relinks publish d (relink publish d) := by
  have hassets : (relink publish d).assets =
      (headerImage? d.fields >>= publish).toList ++
        assetsOf .directive ((iterNodes (fun _ => true) d.tree).flatMap (changesAt publish)) ++
        assetsOf .image ((iterNodes (fun _ => true) d.tree).flatMap (changesAt publish)) ++
        assetsOf .component ((iterNodes (fun _ => true) d.tree).flatMap (changesAt publish)) := by
    simp only [relink, references, List.filterMap_append, assetsOf_flatMap, Surface.source?]
    cases headerImage? d.fields with
    | none => rfl
    | some raw => cases hp : publish raw <;> simp [hp]
  have hrelinked := Relinks.intro (relinks_relinkFields publish d.fields)
    (relinks_relinkNodes publish d.tree.children)
  rw [← iterNodes, ← hassets] at hrelinked
  exact hrelinked

end

/-! ## Published documents -/

/-- What a reference is published as is never the reference as it is written. -/
theorem publicPath_ne {p : Publisher} {t : Tree} {document : Path} {raw : String} {a : Asset}
    (h : p.publish t document raw = some a) : a.publicPath ≠ raw := by
  obtain ⟨f, hf, rfl⟩ := Publisher.publish_eq_some.mp h
  intro heq
  have hforeign := Publisher.localPath?_published hf
  rw [heq] at hforeign
  rw [Publisher.find_of_foreign hforeign] at hf
  cases hf

section

open Batch DocumentMedia.Ledger

/-- In every execution, a document that returned differs from what it was in its published
references, in the notes of the nodes that hold them and in the sizes of components, and in nothing
else. Each of these references has changed. -/
theorem only_references_change {L : Batch → Event → Batch → Prop} (l : Localizer) (now : String)
    (files : Tree) (store : Store) (drafts : List Draft) (es : List Event) (b : Batch) (i : Nat)
    (d : Draft) (result : Localized) (h : Execution L (l.batch now files store drafts) es b)
    (hd : b.docs[i]? = some (d, .returned result)) :
    ∃ es₁ es₂ u, es = es₁ ++ .scan i :: es₂ ∧ (l.batch now files store drafts).after es₁ = some u ∧
      Relinks (l.publisher.publish u.files d.path) d result ∧
      ∀ raw a, l.publisher.publish u.files d.path raw = some a → a.publicPath ≠ raw := by
  rcases h.scanned hd rfl with ⟨old, hold, hr⟩ | ⟨es₁, es₂, u, shared, jobs, rfl, hu, hscan⟩
  · rw [(docs_batch hold).2] at hr
    cases hr
  · obtain ⟨-, hrun, -⟩ := h.at_scan hu
    have hpublisher : u.publisher = l.publisher := hrun.drafts.1
    obtain ⟨-, rfl, -⟩ := scan_ok hscan
    rw [hpublisher]
    exact ⟨es₁, es₂, u, rfl, hu, relinks_relink _ d, fun raw a => publicPath_ne⟩

def samplePicture : List UInt8 :=
  [71, 73, 70, 56, 57, 97, 3, 0, 2, 0, 0, 0, 0, 44, 0, 0, 0, 0, 3, 0, 2, 0, 0, 2]

def sampleP : Path :=
  ⟨"", ["public", "assets", "hash", "b3588addf44ec1e0cb1d1e2c541e2c9c36c5ae7e.gif"]⟩

/-- References on all surfaces: elsewhere, to a video, to no file, and to a picture. -/
def surfacesDraft : Draft :=
  ⟨⟨"", ["a.md"]⟩,
    Node.root
      [.parent "paragraph" [] (.paragraph false)
        [.leaf "image" [] (.image "gone.gif" "" none),
          .leaf "textDirective" [] (.directive "video" none [("src", .str "m.mp4")])],
        .parent "mdxJsxFlowElement" []
          (.component "Picture" [⟨"src", some (.text "p.gif")⟩, ⟨"src", some (.text "m.mp4")⟩])
          [Node.text "p"]],
    some [(.str "image", .str "https://media/m.mp4")]⟩

def surfacesFiles : Tree := sampleFiles.put ["p.gif"] (.file (.bytes samplePicture))

def surfacesStart : Batch :=
  (Localizer.start {} []).batch "2024" surfacesFiles (.memory [] 0) [surfacesDraft]

def surfacesEvents : List Event :=
  let withM := surfacesFiles.put sampleM.parts (.file (.bytes [1, 2, 3]))
  let withBoth := withM.put sampleP.parts (.file (.bytes samplePicture))
  [.scan 0, .start sampleM, .settle sampleM withM none, .start sampleP,
    .settle sampleP withBoth none, .take 0, .save (.ok (.memory [] 1, withBoth))]

def publishedIn (b : Batch) : Option (List String) :=
  match b.docs with
  | [(_, .returned result)] => some (result.assets.map (·.publicPath))
  | _ => none

theorem surfaces_run :
    (checked (fun _ _ _ => true) surfacesStart surfacesEvents >>= publishedIn) =
      some ["/assets/hash/7037807198c22a7d2b0807371d763779a84fdfcf.mp4",
        "/assets/hash/b3588addf44ec1e0cb1d1e2c541e2c9c36c5ae7e.gif"] := by
  decide +kernel

theorem only_references_change_sample : ∃ (b : Batch) (d : Draft) (result : Localized),
    b.docs[0]? = some (d, .returned result) ∧
      result.assets.map (·.publicPath) =
        ["/assets/hash/7037807198c22a7d2b0807371d763779a84fdfcf.mp4",
          "/assets/hash/b3588addf44ec1e0cb1d1e2c541e2c9c36c5ae7e.gif"] ∧
      ∃ t : Tree, Relinks (Publisher.publish {} t d.path) d result := by
  obtain ⟨b, hb, hpublished⟩ := Option.bind_eq_some_iff.mp surfaces_run
  have hrun : Execution (fun _ _ _ => True) surfacesStart surfacesEvents b :=
    execution_of_checked (fun _ => trivial) hb
  unfold publishedIn at hpublished
  split at hpublished
  · next d result hdocs =>
    have hd : b.docs[0]? = some (d, .returned result) := by
      rw [hdocs]
      rfl
    obtain ⟨-, -, u, -, -, hrelinks, -⟩ := only_references_change _ _ _ _ _ _ b 0 d result hrun hd
    exact ⟨b, d, result, hd, Option.some.inj hpublished, u.files, hrelinks⟩
  · cases hpublished

end

end Asset

end DocumentMedia
