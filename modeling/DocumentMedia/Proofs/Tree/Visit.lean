import DocumentMedia.Tree.Visit
import Mathlib.Data.List.Perm.Basic
import Mathlib.Logic.Relation

/-! # Visits

A walk keeps a stack of half-built rows of siblings and writes each row back when it is through.
What it does is a recursion over rows: it ends where the recursion ends, with the same calls of the
visitor in the same order and the same tree. -/
namespace DocumentMedia

variable {σ : Type} {test : Node → Bool} {visitor : Visitor σ}

/-! ## Nodes in document order -/

theorem iterFrom_append (test : Node → Bool) (ns ms : List Node) :
    iterFrom test (ns ++ ms) = iterFrom test ns ++ iterFrom test ms := by
  induction ns using iterFrom.induct test with
  | case1 => rw [List.nil_append, iterFrom, List.nil_append]
  | case2 n rest _ hn ih =>
    rw [List.cons_append, iterFrom, iterFrom]
    simp only [hn, if_true]
    rw [← List.append_assoc, ih, List.cons_append]
  | case3 n rest _ hn ih =>
    rw [List.cons_append, iterFrom, iterFrom]
    simp only [hn, Bool.false_eq_true, if_false]
    rw [← List.append_assoc, ih]

theorem iterFrom_nil (test : Node → Bool) : iterFrom test [] = [] := by
  rw [iterFrom]

/-- A node comes before the nodes below it, and these before the nodes after it. -/
theorem iterFrom_cons (n : Node) (ns : List Node) :
    iterFrom (fun _ => true) (n :: ns) =
      n :: (iterFrom (fun _ => true) n.children ++ iterFrom (fun _ => true) ns) := by
  rw [iterFrom]
  simp only [if_true, iterFrom_append]

/-! ## The recursion -/

/-- A call of a visitor with its answer. -/
structure Call where
  node : Node
  parent : Node
  action : Action

/-- The visitor with a record of its calls beside its state. -/
def Visitor.recording (visitor : Visitor σ) : Visitor (σ × List Call) :=
  fun node parent (s, calls) =>
    let (action, s) := visitor node parent s
    (action, s, calls ++ [⟨node, parent, action⟩])

/-- The recursion over a row of siblings below a parent, from one state of the visitor: the row
that is left, the state behind it and the calls that were made. Replacements are not entered, nor
is a node that is kept. Any other node stays, and the recursion goes through the children that the
visitor has left it before it goes on to the next sibling. -/
inductive Passes (test : Node → Bool) (visitor : Visitor σ) :
    Node → List Node → σ → List Node → σ → List Call → Prop where
  | done {parent s} : Passes test visitor parent [] s [] s []
  | replaced {parent n rest s ns s₁ out s₂ calls} (ht : test n = true)
      (hv : visitor n parent s = (.replace ns, s₁))
      (h : Passes test visitor parent rest s₁ out s₂ calls) :
      Passes test visitor parent (n :: rest) s (ns ++ out) s₂
        (⟨n, parent, .replace ns⟩ :: calls)
  | kept {parent n rest s m s₁ out s₂ calls} (ht : test n = true)
      (hv : visitor n parent s = (.keep m, s₁))
      (h : Passes test visitor parent rest s₁ out s₂ calls) :
      Passes test visitor parent (n :: rest) s (m :: out) s₂ (⟨n, parent, .keep m⟩ :: calls)
  | entered {parent n rest s m s₁ kids s₂ inner out s₃ outer} (ht : test n = true)
      (hv : visitor n parent s = (.descend m, s₁))
      (hb : Passes test visitor m m.children s₁ kids s₂ inner)
      (h : Passes test visitor parent rest s₂ out s₃ outer) :
      Passes test visitor parent (n :: rest) s (m.withChildren kids :: out) s₃
        (⟨n, parent, .descend m⟩ :: (inner ++ outer))
  | passed {parent n rest s kids s₁ inner out s₂ outer} (ht : test n = false)
      (hb : Passes test visitor n n.children s kids s₁ inner)
      (h : Passes test visitor parent rest s₁ out s₂ outer) :
      Passes test visitor parent (n :: rest) s (n.withChildren kids :: out) s₂ (inner ++ outer)

/-- The recursion over a tree: the tree that is left, the visitor's state and its calls. -/
def Visits (test : Node → Bool) (visitor : Visitor σ) (tree : Node) (s : σ) (left : Node) (s' : σ)
    (calls : List Call) : Prop :=
  ∃ row, Passes test visitor tree tree.children s row s' calls ∧ left = tree.withChildren row

/-! ## Runs of a walk -/

theorem Walk.run_succ (fuel : Nat) (w : Walk σ) :
    Walk.run test visitor (fuel + 1) w = Walk.run test visitor fuel (w.next test visitor) := by
  cases w with
  | running top below s => rfl
  | finished t s => cases fuel <;> rfl

theorem Walk.run_finished (fuel : Nat) (t : Node) (s : σ) :
    Walk.run test visitor fuel (.finished t s) = .finished t s := by
  cases fuel <;> rfl

theorem Walk.run_add (fuel more : Nat) (w : Walk σ) :
    Walk.run test visitor (fuel + more) w =
      Walk.run test visitor more (Walk.run test visitor fuel w) := by
  induction fuel generalizing w with
  | zero => rw [Nat.zero_add]; rfl
  | succ fuel ih => rw [Nat.succ_add, Walk.run_succ, ih, Walk.run_succ]

theorem visit_eq_some {fuel : Nat} {tree left : Node} {s s' : σ} :
    visit fuel test visitor tree s = some (left, s') ↔
      Walk.run test visitor fuel (.running (.enter tree) [] s) = .finished left s' := by
  unfold visit
  cases Walk.run test visitor fuel (.running (.enter tree) [] s) <;> simp

/-- A visit that has ended stays as it is when it may take more steps. -/
theorem visit_of_le {fuel more : Nat} {tree left : Node} {s s' : σ} (hle : fuel ≤ more)
    (h : visit fuel test visitor tree s = some (left, s')) :
    visit more test visitor tree s = some (left, s') := by
  obtain ⟨extra, rfl⟩ := Nat.exists_eq_add_of_le hle
  rw [visit_eq_some] at h ⊢
  rw [Walk.run_add, h, Walk.run_finished]

/-! ## Records

The record is only written, so a walk without it is the walk with it less the record. -/

def Walk.unrecorded : Walk (σ × List Call) → Walk σ
  | .running top below (s, _) => .running top below s
  | .finished t (s, _) => .finished t s

theorem consider_recording (n parent : Node) (s : σ) (calls : List Call) :
    ∃ more, consider test visitor.recording n parent (s, calls) =
      ((consider test visitor n parent s).1, (consider test visitor n parent s).2, more) := by
  unfold consider
  split
  · exact ⟨_, rfl⟩
  · exact ⟨calls, rfl⟩

theorem Walk.unrecorded_next (w : Walk (σ × List Call)) :
    (w.next test visitor.recording).unrecorded = w.unrecorded.next test visitor := by
  obtain ⟨⟨parent, source, result⟩, below, s, calls⟩ | ⟨t, s, calls⟩ := w
  · cases source with
    | nil => cases below <;> rfl
    | cons n rest =>
      obtain ⟨more, hc⟩ := @consider_recording _ test visitor n parent s calls
      simp only [Walk.next, Walk.unrecorded, hc]
      obtain ⟨action, s₁⟩ := consider test visitor n parent s
      cases action with
      | replace ns => rfl
      | keep m => rfl
      | descend m => cases h : m.isParent <;> simp [h]
  · rfl

theorem Walk.unrecorded_run (fuel : Nat) (w : Walk (σ × List Call)) :
    (Walk.run test visitor.recording fuel w).unrecorded =
      Walk.run test visitor fuel w.unrecorded := by
  induction fuel generalizing w with
  | zero => rfl
  | succ fuel ih => rw [Walk.run_succ, ih, Walk.unrecorded_next, Walk.run_succ]

theorem visit_recording (fuel : Nat) (tree : Node) (s : σ) :
    visit fuel test visitor tree s =
      (visit fuel test visitor.recording tree (s, [])).map fun (left, s', _) => (left, s') := by
  have h := @Walk.unrecorded_run _ test visitor fuel (.running (.enter tree) [] (s, []))
  unfold visit
  rw [Walk.unrecorded] at h
  rw [← h]
  cases Walk.run test visitor.recording fuel (.running (.enter tree) [] (s, [])) <;> rfl

theorem consider_of_match {n parent : Node} {s s₁ : σ} {action : Action} (calls : List Call)
    (ht : test n = true) (hv : visitor n parent s = (action, s₁)) :
    consider test visitor.recording n parent (s, calls) =
      (action, s₁, calls ++ [⟨n, parent, action⟩]) := by
  rw [consider, if_pos ht, Visitor.recording, hv]

theorem consider_of_no_match {n : Node} (parent : Node) (s : σ) (ht : test n = false) :
    consider test visitor n parent s = (.descend n, s) := by
  rw [consider, if_neg (by simp [ht])]

/-! ## The walk does what the recursion does

By induction on the recursion: while the walk is in a row it leaves the stack below alone, so each
row is gone through as if it stood alone. -/

def Walk.Reaches (test : Node → Bool) (visitor : Visitor σ) : Walk σ → Walk σ → Prop :=
  Relation.ReflTransGen fun w w' => w.next test visitor = w'

theorem Walk.Reaches.step {w w' w'' : Walk σ} (hn : w.next test visitor = w')
    (h : Walk.Reaches test visitor w' w'') : Walk.Reaches test visitor w w'' :=
  Relation.ReflTransGen.head hn h

theorem Walk.Reaches.trans {w w' w'' : Walk σ} (h : Walk.Reaches test visitor w w')
    (h' : Walk.Reaches test visitor w' w'') : Walk.Reaches test visitor w w'' :=
  Relation.ReflTransGen.trans h h'

theorem Walk.Reaches.run {w : Walk σ} {t : Node} {s : σ}
    (h : Walk.Reaches test visitor w (.finished t s)) :
    ∃ fuel, Walk.run test visitor fuel w = .finished t s := by
  induction h using Relation.ReflTransGen.head_induction_on with
  | refl => exact ⟨0, rfl⟩
  | head hn _ ih =>
    obtain ⟨fuel, hf⟩ := ih
    exact ⟨fuel + 1, by rw [Walk.run_succ, hn, hf]⟩

/-- A leaf has no row below it, and the walk does not enter it. -/
theorem Walk.reaches_below {n m parent : Node} {kids : List Node} {s s₁ s₂ : σ}
    {calls calls₁ inner : List Call} (rest result : List Node) (below : List Frame)
    (hc : consider test visitor.recording n parent (s, calls) = (.descend m, s₁, calls₁))
    (hb : Passes test visitor m m.children s₁ kids s₂ inner)
    (ih : ∀ below, Walk.Reaches test visitor.recording (.running (.enter m) below (s₁, calls₁))
      (.running ⟨m, [], kids⟩ below (s₂, calls₁ ++ inner))) :
    Walk.Reaches test visitor.recording (.running ⟨parent, n :: rest, result⟩ below (s, calls))
      (.running ⟨parent, rest, result ++ [m.withChildren kids]⟩ below (s₂, calls₁ ++ inner)) := by
  cases m with
  | leaf type data body =>
    cases hb
    rw [List.append_nil]
    exact .single (by simp only [Walk.next, hc]; rfl)
  | parent type data body cs =>
    have henter : Walk.next test visitor.recording
        (.running ⟨parent, n :: rest, result⟩ below (s, calls)) =
        .running (.enter (.parent type data body cs)) (⟨parent, rest, result⟩ :: below)
          (s₁, calls₁) := by
      simp only [Walk.next, hc]; rfl
    exact (Walk.Reaches.step henter (ih _)).tail rfl

theorem Walk.reaches_of_passes {parent : Node} {ns out : List Node} {s s' : σ} {calls : List Call}
    (h : Passes test visitor parent ns s out s' calls) (result : List Node) (below : List Frame)
    (before : List Call) :
    Walk.Reaches test visitor.recording (.running ⟨parent, ns, result⟩ below (s, before))
      (.running ⟨parent, [], result ++ out⟩ below (s', before ++ calls)) := by
  induction h generalizing result below before with
  | done => simp only [List.append_nil]; exact .refl
  | @replaced parent n rest s ns s₁ out s₂ calls ht hv _ ih =>
    have hrest := ih (result ++ ns) below (before ++ [⟨n, parent, .replace ns⟩])
    rw [List.append_assoc, List.append_assoc] at hrest
    exact .step (by simp only [Walk.next, consider_of_match before ht hv]; rfl) hrest
  | @kept parent n rest s m s₁ out s₂ calls ht hv _ ih =>
    have hrest := ih (result ++ [m]) below (before ++ [⟨n, parent, .keep m⟩])
    rw [List.append_assoc, List.append_assoc] at hrest
    exact .step (by simp only [Walk.next, consider_of_match before ht hv]; rfl) hrest
  | @entered parent n rest s m s₁ kids s₂ inner out s₃ outer ht hv hb _ ihb ih =>
    have hrest := ih (result ++ [m.withChildren kids]) below
      (before ++ [⟨n, parent, .descend m⟩] ++ inner)
    have hbelow := Walk.reaches_below rest result below
      (consider_of_match before ht hv) hb fun below => ihb [] below _
    simp only [List.append_assoc, List.cons_append, List.nil_append] at hbelow hrest ⊢
    exact hbelow.trans hrest
  | @passed parent n rest s kids s₁ inner out s₂ outer ht hb _ ihb ih =>
    have hrest := ih (result ++ [n.withChildren kids]) below (before ++ inner)
    have hbelow := Walk.reaches_below rest result below
      (consider_of_no_match parent (s, before) ht) hb fun below => ihb [] below _
    simp only [List.append_assoc, List.cons_append, List.nil_append] at hbelow hrest ⊢
    exact hbelow.trans hrest

theorem visit_of_visits {tree left : Node} {s s' : σ} {calls : List Call}
    (h : Visits test visitor tree s left s' calls) :
    ∃ fuel, visit fuel test visitor.recording tree (s, []) = some (left, s', calls) := by
  obtain ⟨row, hp, rfl⟩ := h
  have hr := Walk.reaches_of_passes hp [] [] []
  obtain ⟨fuel, hf⟩ := Walk.Reaches.run (hr.tail rfl)
  exact ⟨fuel, visit_eq_some.mpr hf⟩

/-! ## The recursion does what the walk does

By induction on the steps of the walk, last step first: what is still to be done from a stack of
frames is the recursion over the row of each frame, innermost first. -/

/-- What is left to be done from a stack of frames. -/
inductive Finishes (test : Node → Bool) (visitor : Visitor σ) :
    Frame → List Frame → σ → Node → σ → List Call → Prop where
  | last {parent source result s row s' calls}
      (h : Passes test visitor parent source s row s' calls) :
      Finishes test visitor ⟨parent, source, result⟩ [] s (parent.withChildren (result ++ row)) s'
        calls
  | inner {parent source result f fs s row s₁ left s' calls later}
      (h : Passes test visitor parent source s row s₁ calls)
      (hf : Finishes test visitor (f.emit [parent.withChildren (result ++ row)]) fs s₁ left s'
        later) :
      Finishes test visitor ⟨parent, source, result⟩ (f :: fs) s left s' (calls ++ later)

theorem Finishes.cons {parent n left : Node} {rest result ns : List Node} {below : List Frame}
    {s s₁ s' : σ} {first calls : List Call}
    (h : Finishes test visitor ⟨parent, rest, result ++ ns⟩ below s₁ left s' calls)
    (hp : ∀ {out s₂ later}, Passes test visitor parent rest s₁ out s₂ later →
      Passes test visitor parent (n :: rest) s (ns ++ out) s₂ (first ++ later)) :
    Finishes test visitor ⟨parent, n :: rest, result⟩ below s left s' (first ++ calls) := by
  cases h with
  | last h => rw [List.append_assoc]; exact .last (hp h)
  | inner h hf =>
    rw [List.append_assoc] at hf
    rw [← List.append_assoc]
    exact .inner (hp h) hf

/-- How a walk ends, said by the recursion. -/
def Walk.Ends (test : Node → Bool) (visitor : Visitor σ) (left : Node) (s' : σ)
    (calls : List Call) : Walk (σ × List Call) → Prop
  | .finished t (s, before) => t = left ∧ s = s' ∧ before = calls
  | .running top below (s, before) =>
    ∃ later, before ++ later = calls ∧ Finishes test visitor top below s left s' later

theorem Walk.ends_below {m parent left : Node} {rest result : List Node} {below : List Frame}
    {s₁ s' : σ} {calls₁ calls : List Call}
    (h : Walk.Ends test visitor left s' calls
      (if m.isParent then .running (.enter m) (⟨parent, rest, result⟩ :: below) (s₁, calls₁)
        else .running ⟨parent, rest, result ++ [m]⟩ below (s₁, calls₁))) :
    ∃ kids s₂ inner outer, calls₁ ++ (inner ++ outer) = calls ∧
      Passes test visitor m m.children s₁ kids s₂ inner ∧
      Finishes test visitor ⟨parent, rest, result ++ [m.withChildren kids]⟩ below s₂ left s'
        outer := by
  cases m with
  | leaf type data body =>
    obtain ⟨later, hl, hf⟩ := h
    exact ⟨[], s₁, [], later, hl, .done, hf⟩
  | parent type data body cs =>
    obtain ⟨later, hl, hf⟩ := h
    cases hf with
    | inner hb hf => exact ⟨_, _, _, _, hl, hb, hf⟩

theorem Walk.ends_of_next {left : Node} {s' : σ} {calls : List Call} {w : Walk (σ × List Call)}
    (h : Walk.Ends test visitor left s' calls (w.next test visitor.recording)) :
    Walk.Ends test visitor left s' calls w := by
  obtain ⟨⟨parent, source, result⟩, below, s, before⟩ | ⟨t, s, before⟩ := w
  · cases source with
    | nil =>
      cases below with
      | nil =>
        obtain ⟨rfl, rfl, rfl⟩ := h
        refine ⟨[], List.append_nil before, ?_⟩
        have hlast := @Finishes.last _ test visitor parent [] result s [] s [] .done
        rwa [List.append_nil] at hlast
      | cons f fs =>
        obtain ⟨later, hl, hf⟩ := h
        refine ⟨later, hl, .inner .done ?_⟩
        rwa [List.append_nil]
    | cons n rest =>
      cases ht : test n with
      | false =>
        simp only [Walk.next, consider_of_no_match parent _ ht] at h
        obtain ⟨kids, s₂, inner, outer, hl, hb, hf⟩ := Walk.ends_below h
        exact ⟨inner ++ outer, hl, hf.cons (.passed ht hb)⟩
      | true =>
        rcases hv : visitor n parent s with ⟨action, s₁⟩
        simp only [Walk.next, consider_of_match before ht hv] at h
        cases action with
        | replace ns =>
          obtain ⟨later, hl, hf⟩ := h
          exact ⟨_, (List.append_assoc ..).symm.trans hl, hf.cons (.replaced ht hv)⟩
        | keep m =>
          obtain ⟨later, hl, hf⟩ := h
          exact ⟨_, (List.append_assoc ..).symm.trans hl, hf.cons (.kept ht hv)⟩
        | descend m =>
          obtain ⟨kids, s₂, inner, outer, hl, hb, hf⟩ := Walk.ends_below h
          refine ⟨(⟨n, parent, .descend m⟩ :: inner) ++ outer, ?_, hf.cons (.entered ht hv hb)⟩
          rw [← hl, List.append_assoc]; rfl
  · exact h

theorem Walk.ends_of_run {fuel : Nat} {left : Node} {s' : σ} {calls : List Call}
    {w : Walk (σ × List Call)}
    (h : Walk.run test visitor.recording fuel w = .finished left (s', calls)) :
    Walk.Ends test visitor left s' calls w := by
  induction fuel generalizing w with
  | zero => rw [Walk.run] at h; subst h; exact ⟨rfl, rfl, rfl⟩
  | succ fuel ih => rw [Walk.run_succ] at h; exact Walk.ends_of_next (ih h)

theorem visits_of_visit {fuel : Nat} {tree left : Node} {s s' : σ} {calls : List Call}
    (h : visit fuel test visitor.recording tree (s, []) = some (left, s', calls)) :
    Visits test visitor tree s left s' calls := by
  obtain ⟨later, rfl, hf⟩ := Walk.ends_of_run (visit_eq_some.mp h)
  cases hf with
  | last h => exact ⟨_, h, rfl⟩

/-! ## Visits that end -/

theorem Visits.ends {tree left : Node} {s s' : σ} {calls : List Call}
    (h : Visits test visitor tree s left s' calls) :
    ∃ fuel, visit fuel test visitor tree s = some (left, s') := by
  obtain ⟨fuel, hf⟩ := visit_of_visits h
  exact ⟨fuel, by rw [visit_recording, hf]; rfl⟩

theorem Visits.unique {tree left left' : Node} {s s₁ s₂ : σ} {calls calls' : List Call}
    (h : Visits test visitor tree s left s₁ calls)
    (h' : Visits test visitor tree s left' s₂ calls') :
    left = left' ∧ s₁ = s₂ ∧ calls = calls' := by
  obtain ⟨fuel, hf⟩ := visit_of_visits h
  obtain ⟨more, hm⟩ := visit_of_visits h'
  have heq := (visit_of_le (Nat.le_max_left fuel more) hf).symm.trans
    (visit_of_le (Nat.le_max_right fuel more) hm)
  cases heq
  exact ⟨rfl, rfl, rfl⟩

/-- The visitor adds no nodes below those it is to go on below. -/
def Visitor.AddsNothing (test : Node → Bool) (visitor : Visitor σ) : Prop :=
  ∀ n parent s m s₁, test n = true → visitor n parent s = (.descend m, s₁) →
    Node.countAll m.children ≤ Node.countAll n.children

theorem Visitor.AddsNothing.passes (h : visitor.AddsNothing test) (parent : Node) (ns : List Node)
    (s : σ) : ∃ out s' calls, Passes test visitor parent ns s out s' calls := by
  -- By the number of nodes still ahead: what the visitor leaves below a node counts no more than
  -- what stood there, and the node itself is behind.
  induction hk : Node.countAll ns using Nat.strongRecOn generalizing parent ns s with
  | _ k ih =>
    cases ns with
    | nil => exact ⟨_, _, _, .done⟩
    | cons n rest =>
      have hcount : 1 + Node.countAll n.children + Node.countAll rest = k := by
        rw [← hk, Node.countAll, Node.count_eq]
      have hrest := fun s => ih (Node.countAll rest) (by omega) parent rest s rfl
      cases ht : test n with
      | false =>
        obtain ⟨_, s₁, _, hb⟩ := ih (Node.countAll n.children) (by omega) n n.children s rfl
        obtain ⟨_, _, _, hr⟩ := hrest s₁
        exact ⟨_, _, _, .passed ht hb hr⟩
      | true =>
        rcases hv : visitor n parent s with ⟨action, s₁⟩
        cases action with
        | replace ns => obtain ⟨_, _, _, hr⟩ := hrest s₁; exact ⟨_, _, _, .replaced ht hv hr⟩
        | keep m => obtain ⟨_, _, _, hr⟩ := hrest s₁; exact ⟨_, _, _, .kept ht hv hr⟩
        | descend m =>
          have hm := h n parent s m s₁ ht hv
          obtain ⟨_, s₂, _, hb⟩ := ih (Node.countAll m.children) (by omega) m m.children s₁ rfl
          obtain ⟨_, _, _, hr⟩ := hrest s₂
          exact ⟨_, _, _, .entered ht hv hb hr⟩

/-! ## Each node once

Nodes are told apart by a mark. -/

section Marks

variable {α : Type} {mark : Node → Option α}

/-- The marks of the nodes below a node, in document order. -/
def marksBelow (mark : Node → Option α) (n : Node) : List α :=
  (iterNodes (fun _ => true) n).filterMap mark

/-- The call takes no marked node away and brings in none: below a node that is replaced or kept
there is none, and any other node has as many of each mark below it as before. -/
def Call.Retains (mark : Node → Option α) (c : Call) : Prop :=
  match c.action with
  | .descend m => (marksBelow mark m).Perm (marksBelow mark c.node)
  | .keep _ | .replace _ => marksBelow mark c.node = []

theorem filterMap_cons_toList {β : Type} (f : β → Option α) (b : β) (bs : List β) :
    (b :: bs).filterMap f = (f b).toList ++ bs.filterMap f := by
  cases h : f b <;> simp [h]

theorem filterMap_iterFrom_cons (n : Node) (ns : List Node) :
    (iterFrom (fun _ => true) (n :: ns)).filterMap mark =
      (mark n).toList ++ (marksBelow mark n ++
        (iterFrom (fun _ => true) ns).filterMap mark) := by
  rw [iterFrom_cons, filterMap_cons_toList, List.filterMap_append]
  rfl

theorem Passes.marks {parent : Node} {ns out : List Node} {s s' : σ} {calls : List Call}
    (h : Passes test visitor parent ns s out s' calls)
    (hm : ∀ n, (mark n).isSome = true → test n = true)
    (hr : ∀ c ∈ calls, c.Retains mark) :
    (calls.filterMap (mark ·.node)).Perm ((iterFrom (fun _ => true) ns).filterMap mark) := by
  induction h with
  | done => rw [iterFrom_nil, List.filterMap_nil, List.filterMap_nil]
  | replaced ht hv h ih =>
    obtain ⟨hn, hr⟩ := List.forall_mem_cons.mp hr
    rw [filterMap_cons_toList, filterMap_iterFrom_cons, show marksBelow mark _ = [] from hn]
    exact (ih hr).append_left _
  | kept ht hv h ih =>
    obtain ⟨hn, hr⟩ := List.forall_mem_cons.mp hr
    rw [filterMap_cons_toList, filterMap_iterFrom_cons, show marksBelow mark _ = [] from hn]
    exact (ih hr).append_left _
  | entered ht hv hb h ihb ih =>
    -- The row below is the one the visitor has left, which has the same marks as the one before.
    obtain ⟨hn, hr⟩ := List.forall_mem_cons.mp hr
    obtain ⟨hinner, houter⟩ := List.forall_mem_append.mp hr
    rw [filterMap_cons_toList, filterMap_iterFrom_cons, List.filterMap_append]
    exact (((ihb hinner).trans hn).append (ih houter)).append_left _
  | @passed parent n rest s kids s₁ inner out s₂ outer ht hb h ihb ih =>
    obtain ⟨hinner, houter⟩ := List.forall_mem_append.mp hr
    have hn : mark n = none := by
      cases h : mark n with
      | none => rfl
      | some a => rw [hm n (by rw [h]; rfl)] at ht; cases ht
    rw [filterMap_iterFrom_cons, hn, List.filterMap_append]
    exact (ihb hinner).append (ih houter)

end Marks

/-! ## Visits and their recursion -/

/-- A visit ends exactly where the recursion ends, with the same tree, the same state and the same
calls; the record of the calls changes nothing else. It does end if the visitor adds no nodes. Each
node that matches is visited exactly as often as it stands in the tree, unless the visitor takes
it away or brings it in. -/
theorem visit_is_recursion (test : Node → Bool) (visitor : Visitor σ) (tree : Node) (s : σ) :
    (∀ fuel, visit fuel test visitor tree s =
      (visit fuel test visitor.recording tree (s, [])).map fun (left, s', _) => (left, s')) ∧
    (∀ left s' calls,
      (∃ fuel, visit fuel test visitor.recording tree (s, []) = some (left, s', calls)) ↔
        Visits test visitor tree s left s' calls) ∧
    (visitor.AddsNothing test → ∃ fuel left s', visit fuel test visitor tree s = some (left, s')) ∧
    ∀ (α : Type) (mark : Node → Option α), (∀ n, (mark n).isSome = true → test n = true) →
      ∀ left s' calls, Visits test visitor tree s left s' calls →
        (∀ c ∈ calls, c.Retains mark) →
        (calls.filterMap (mark ·.node)).Perm (marksBelow mark tree) := by
  refine ⟨fun fuel => visit_recording fuel tree s, ?_, ?_, ?_⟩
  · intro left s' calls
    constructor
    · rintro ⟨fuel, h⟩
      exact visits_of_visit h
    · exact visit_of_visits
  · intro ha
    obtain ⟨row, s', calls, hp⟩ := ha.passes tree tree.children s
    obtain ⟨fuel, hf⟩ := Visits.ends ⟨row, hp, rfl⟩
    exact ⟨fuel, tree.withChildren row, s', hf⟩
  · rintro α mark hm left s' calls ⟨row, hp, -⟩ hr
    exact hp.marks hm hr

def samplePicture : Node := .leaf "image" [] (.image "x.png" "" none)

def sampleQuote : Node := .parent "blockquote" [] (.element "blockquote" [] false) [.text "c"]

def sampleParagraph (children : List Node) : Node :=
  .parent "paragraph" [] (.paragraph false) children

def sampleDocument : Node :=
  .root [sampleParagraph [.text "a", .text "b", samplePicture], sampleQuote]

/-- Counts its calls, takes away the first child of each paragraph, keeps quotations and replaces
images. -/
def sampleVisitor : Visitor Nat := fun n _ count =>
  (match n with
    | .leaf _ _ (.image ..) => .replace [.html "<i>", .html "</i>"]
    | .parent _ _ (.paragraph _) cs => .descend (n.withChildren cs.tail)
    | .parent _ _ (.element ..) _ => .keep n
    | n => .descend n, count + 1)

def textMark (value : String) : Node → Option String
  | .leaf _ _ (.text v) => if v = value then some v else none
  | _ => none

theorem sampleVisitor_addsNothing : sampleVisitor.AddsNothing fun _ => true := by
  intro n parent s m s₁ _ hv
  obtain ⟨type, data, body⟩ | ⟨type, data, body, cs⟩ := n
  · cases body <;> cases hv <;> exact Nat.le_refl _
  · cases body with
    | paragraph hidden =>
      cases hv
      cases cs with
      | nil => exact Nat.le_refl _
      | cons c cs => simp [Node.withChildren, Node.children, Node.countAll]
    | _ => cases hv <;> exact Nat.le_refl _

/-- The calls on the sample document. The texts below the quotation and in front of the paragraph
are not visited. -/
def sampleCalls : List Call :=
  let left := sampleParagraph [.text "b", samplePicture]
  [⟨sampleParagraph [.text "a", .text "b", samplePicture], sampleDocument, .descend left⟩,
    ⟨.text "b", left, .descend (.text "b")⟩,
    ⟨samplePicture, left, .replace [.html "<i>", .html "</i>"]⟩,
    ⟨sampleQuote, sampleDocument, .keep sampleQuote⟩]

theorem visit_is_recursion_sample :
    sampleVisitor.AddsNothing (fun _ => true) ∧
    (∃ fuel left count,
      visit fuel (fun _ => true) sampleVisitor sampleDocument 0 = some (left, count)) ∧
    Visits (fun _ => true) sampleVisitor sampleDocument 0
      (.root [sampleParagraph [.text "b", .html "<i>", .html "</i>"], sampleQuote]) 4
      sampleCalls ∧
    (∀ c ∈ sampleCalls, c.Retains (textMark "b")) ∧
    (sampleCalls.filterMap (textMark "b" ·.node)).Perm
      (marksBelow (textMark "b") sampleDocument) := by
  obtain ⟨-, hiff, hends, honce⟩ :=
    visit_is_recursion (fun _ => true) sampleVisitor sampleDocument 0
  have hv := (hiff (.root [sampleParagraph [.text "b", .html "<i>", .html "</i>"], sampleQuote]) 4
    sampleCalls).mp ⟨12, rfl⟩
  have hr : ∀ c ∈ sampleCalls, c.Retains (textMark "b") := by
    simp [sampleCalls, Call.Retains, marksBelow, iterNodes, iterFrom_cons, iterFrom_nil,
      sampleParagraph, samplePicture, sampleQuote, textMark, Node.children, Node.text]
  exact ⟨sampleVisitor_addsNothing, hends sampleVisitor_addsNothing, hv, hr,
    honce String (textMark "b") (fun _ _ => rfl) _ _ _ hv hr⟩

/-- A visit that neither replaces nor keeps a node and goes by a node of the tree all the same. -/
def Misses (test : Node → Bool) (visitor : Visitor Unit) (tree n : Node) : Prop :=
  ∃ fuel left calls, visit fuel test visitor.recording tree ((), []) = some (left, (), calls) ∧
    (∀ c ∈ calls, ∃ m, c.action = .descend m) ∧ n ∈ iterNodes (fun _ => true) tree ∧
    ∀ c ∈ calls, c.node ≠ n

/-- A child that the visitor takes away is not visited, nor is a node that does not match. -/
theorem removed_child_is_not_visited :
    let tree := Node.root [sampleParagraph [.text "a"]]
    Misses (fun _ => true) (fun n _ s => (.descend (n.withChildren []), s)) tree (.text "a") ∧
      Misses Node.isParent (fun n _ s => (.descend n, s)) tree (.text "a") := by
  have hstands : Node.text "a" ∈ iterNodes (fun _ => true) (.root [sampleParagraph [.text "a"]]) := by
    simp [iterNodes, iterFrom_cons, Node.root, sampleParagraph, Node.children]
  refine ⟨⟨9, _, _, rfl, ?_, hstands, ?_⟩, ⟨9, _, _, rfl, ?_, hstands, ?_⟩⟩ <;>
    simp [sampleParagraph, Node.text]

end DocumentMedia
