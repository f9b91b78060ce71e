import DocumentMedia.Asset.Batch

/-! # Steps of a batch

The events of a batch as a relation between batches, and executions as their sequences. What a
step may do to files is no part of the relation: an execution carries a law that its steps obey. -/
namespace DocumentMedia.Asset

open DocumentMedia.Files
open DocumentMedia.Ledger (Store StoreError)

/-- The result of a document whose scan did not fail. -/
def Phase.result? : Phase → Option Localized
  | .copying _ result | .saving result | .returned result => some result
  | .waiting | .raised _ => none

namespace Batch

/-- One constructor for each way in which an event can happen. -/
inductive Step : Batch → Event → Batch → Prop where
  | tick (b now) : Step b (.tick now) { b with now }
  | scan (b i d shared outcome) (hd : b.docs[i]? = some (d, .waiting))
      (hs : Asset.scan b.publisher b.files b.now d b.shared = (shared, outcome)) :
      Step b (.scan i) ({ b with shared }.setPhase i (.afterScan outcome))
  | start (b target) (hq : b.shared.stateOf target = some .scheduled) :
      Step b (.start target) { b with shared := b.shared.setState target .running }
  | write (b target files) (hq : b.shared.stateOf target = some .running) :
      Step b (.write target files) { b with files }
  | settle (b target files failure) (hq : b.shared.stateOf target = some .running) :
      Step b (.settle target files failure)
        { b with files, shared := b.shared.setState target (.ended failure) }
  | fail (b i target d jobs result e) (hd : b.docs[i]? = some (d, .copying jobs result))
      (hm : target ∈ jobs) (hq : b.shared.stateOf target = some (.failed e)) :
      Step b (.fail i target) (b.setPhase i (.raised (.file e)))
  | take (b i d jobs result) (hd : b.docs[i]? = some (d, .copying jobs result))
      (hl : b.saving = none) (hj : allDone b.shared jobs) :
      Step b (.take i) ({ b with saving := some (i, b.shared.ledger) }.setPhase i (.saving result))
  | save (b i l d result store files) (hl : b.saving = some (i, l))
      (hd : b.docs[i]? = some (d, .saving result)) :
      Step b (.save (.ok (store, files)))
        ({ b with store, files, saving := none }.setPhase i (.returned result))
  | unsaved (b i l d result e) (hl : b.saving = some (i, l))
      (hd : b.docs[i]? = some (d, .saving result)) :
      Step b (.save (.error e)) ({ b with saving := none }.setPhase i (.raised (.store e)))

theorem step_sound {b e b'} (h : b.step e = some b') : Step b e b' := by
  cases e with
  | tick now => cases h; exact .tick b now
  | scan i =>
    simp only [step] at h
    split at h
    · next d hd =>
      cases h
      exact .scan b i d _ _ hd rfl
    · cases h
  | start target =>
    simp only [step] at h
    split at h
    · next hq => cases h; exact .start b target hq
    · cases h
  | write target files =>
    simp only [step] at h
    split at h
    · next hq => cases h; exact .write b target files hq
    · cases h
  | settle target files failure =>
    simp only [step] at h
    split at h
    · next hq => cases h; exact .settle b target files failure hq
    · cases h
  | fail i target =>
    simp only [step] at h
    split at h
    · next d jobs result e hd hq =>
      split at h
      · next hm => cases h; exact .fail b i target d jobs result e hd hm hq
      · cases h
    · cases h
  | take i =>
    simp only [step] at h
    split at h
    · next d jobs result hd hl =>
      split at h
      · next hj => cases h; exact .take b i d jobs result hd hl hj
      · cases h
    · cases h
  | save outcome =>
    simp only [step] at h
    split at h
    · cases h
    · next i l hl =>
      split at h
      · next store files d result hd => cases h; exact .save b i l d result store files hl hd
      · next e d result hd => cases h; exact .unsaved b i l d result e hl hd
      · cases h
      · cases h

theorem step_complete {b e b'} (h : Step b e b') : b.step e = some b' := by
  cases h with
  | tick => rfl
  | scan i d shared outcome hd hs => simp [step, hd, hs]
  | start target hq => simp [step, hq]
  | write target files hq => simp [step, hq]
  | settle target files failure hq => simp [step, hq]
  | fail i target d jobs result e hd hm hq => simp [step, hd, hq, hm]
  | take i d jobs result hd hl hj => simp [step, hd, hl, hj]
  | save i l d result store files hl hd => simp [step, hl, hd]
  | unsaved i l d result e hl hd => simp [step, hl, hd]

theorem step_unique {b e b' b''} (h : Step b e b') (k : Step b e b'') : b' = b'' :=
  Option.some.inj ((step_complete h).symm.trans (step_complete k))

theorem step_iff {b e b'} : b.step e = some b' ↔ Step b e b' := ⟨step_sound, step_complete⟩

/-! ## Documents of a batch -/

theorem docs_setPhase {b : Batch} {i j : Nat} {ph ph' : Phase} {d : Draft} :
    (b.setPhase i ph).docs[j]? = some (d, ph') ↔
      (j = i ∧ ph' = ph ∧ ∃ old, b.docs[i]? = some (d, old)) ∨
      (j ≠ i ∧ b.docs[j]? = some (d, ph')) := by
  simp only [setPhase, List.getElem?_modify, Option.map_eq_map, Option.map_eq_some_iff]
  by_cases hj : j = i
  · subst j
    constructor
    · rintro ⟨⟨d', old⟩, hd, he⟩
      rw [if_pos rfl] at he
      cases he
      exact Or.inl ⟨rfl, rfl, old, hd⟩
    · rintro (⟨-, rfl, old, hd⟩ | ⟨hne, -⟩)
      · exact ⟨(d, old), hd, by simp⟩
      · exact absurd rfl hne
  · have hi : i ≠ j := fun h => hj h.symm
    simp [hi, hj]

theorem drafts_setPhase (b : Batch) (i : Nat) (ph : Phase) :
    (b.setPhase i ph).docs.map (·.1) = b.docs.map (·.1) := by
  apply List.ext_getElem?
  intro j
  simp only [setPhase, List.getElem?_map, List.getElem?_modify, Option.map_eq_map, Option.map_map]
  congr 1
  funext x
  by_cases hj : i = j <;> simp [hj]

theorem step_drafts {b e b'} (h : Step b e b') :
    b'.publisher = b.publisher ∧ b'.docs.map (·.1) = b.docs.map (·.1) := by
  cases h <;> exact ⟨rfl, by simp only [drafts_setPhase]⟩

/-- The ways in which an event takes a document to another phase. -/
inductive Moves (b : Batch) (i : Nat) (d : Draft) : Event → Phase → Prop where
  | scanned (shared outcome) (hd : b.docs[i]? = some (d, .waiting))
      (hs : Asset.scan b.publisher b.files b.now d b.shared = (shared, outcome)) :
      Moves b i d (.scan i) (.afterScan outcome)
  | failed (target jobs result e) (hd : b.docs[i]? = some (d, .copying jobs result))
      (hm : target ∈ jobs) (hq : b.shared.stateOf target = some (.failed e)) :
      Moves b i d (.fail i target) (.raised (.file e))
  | took (jobs result) (hd : b.docs[i]? = some (d, .copying jobs result))
      (hl : b.saving = none) (hj : allDone b.shared jobs) : Moves b i d (.take i) (.saving result)
  | saved (l result store files) (hl : b.saving = some (i, l))
      (hd : b.docs[i]? = some (d, .saving result)) :
      Moves b i d (.save (.ok (store, files))) (.returned result)
  | unsaved (l result e) (hl : b.saving = some (i, l))
      (hd : b.docs[i]? = some (d, .saving result)) :
      Moves b i d (.save (.error e)) (.raised (.store e))

/-- After an event a document is in the phase it was in, or the event moved it. -/
theorem docs_step {b b' : Batch} {e : Event} {j : Nat} {d : Draft} {ph : Phase} (h : Step b e b')
    (hj : b'.docs[j]? = some (d, ph)) : b.docs[j]? = some (d, ph) ∨ Moves b j d e ph := by
  have moved : ∀ {i : Nat} {d' : Draft} {old : Phase}, b.docs[i]? = some (d', old) →
      (∃ old, b.docs[i]? = some (d, old)) → b.docs[i]? = some (d, old) := by
    rintro i d' old hd ⟨old', hold⟩
    rw [hd] at hold
    rw [hd, (Prod.mk.inj (Option.some.inj hold)).1]
  cases h with
  | scan i d' shared outcome hd hs =>
    rcases docs_setPhase.mp hj with ⟨rfl, rfl, hold⟩ | ⟨-, hold⟩
    · have hd' := moved hd hold
      obtain rfl : d' = d := by rw [hd] at hd'; exact (Prod.mk.inj (Option.some.inj hd')).1
      exact Or.inr (.scanned shared outcome hd' hs)
    · exact Or.inl hold
  | fail i target d' jobs result e hd hm hq =>
    rcases docs_setPhase.mp hj with ⟨rfl, rfl, hold⟩ | ⟨-, hold⟩
    · exact Or.inr (.failed target jobs result e (moved hd hold) hm hq)
    · exact Or.inl hold
  | take i d' jobs result hd hl hdone =>
    rcases docs_setPhase.mp hj with ⟨rfl, rfl, hold⟩ | ⟨-, hold⟩
    · exact Or.inr (.took jobs result (moved hd hold) hl hdone)
    · exact Or.inl hold
  | save i l d' result store files hl hd =>
    rcases docs_setPhase.mp hj with ⟨rfl, rfl, hold⟩ | ⟨-, hold⟩
    · exact Or.inr (.saved l result store files hl (moved hd hold))
    · exact Or.inl hold
  | unsaved i l d' result e hl hd =>
    rcases docs_setPhase.mp hj with ⟨rfl, rfl, hold⟩ | ⟨-, hold⟩
    · exact Or.inr (.unsaved l result e hl (moved hd hold))
    · exact Or.inl hold
  | _ => exact Or.inl hj

theorem docs_next {b b' : Batch} {e : Event} {j : Nat} {d : Draft} {ph : Phase} (h : Step b e b')
    (hj : b.docs[j]? = some (d, ph)) :
    b'.docs[j]? = some (d, ph) ∨ ∃ ph', b'.docs[j]? = some (d, ph') ∧ Moves b j d e ph' := by
  have hd := congrArg (fun l => l[j]?) (step_drafts h).2
  simp only [List.getElem?_map, hj, Option.map_some] at hd
  obtain ⟨⟨d', ph'⟩, hx, rfl⟩ := Option.map_eq_some_iff.mp hd
  rcases docs_step h hx with hold | hm
  · rw [hj] at hold
    cases hold
    exact Or.inl hx
  · exact Or.inr ⟨ph', hx, hm⟩

theorem Moves.before {b : Batch} {e : Event} {i : Nat} {d : Draft} {ph : Phase}
    (h : Moves b i d e ph) :
    b.docs[i]? = some (d, .waiting) ∨ (∃ jobs result, b.docs[i]? = some (d, .copying jobs result)) ∨
      ∃ result, b.docs[i]? = some (d, .saving result) := by
  cases h with
  | scanned _ _ hd => exact Or.inl hd
  | failed _ jobs result _ hd => exact Or.inr (Or.inl ⟨jobs, result, hd⟩)
  | took jobs result hd => exact Or.inr (Or.inl ⟨jobs, result, hd⟩)
  | saved _ result _ _ _ hd => exact Or.inr (Or.inr ⟨result, hd⟩)
  | unsaved _ result _ _ hd => exact Or.inr (Or.inr ⟨result, hd⟩)

theorem Moves.result {b : Batch} {e : Event} {i : Nat} {d : Draft} {ph : Phase}
    {result : Localized} (h : Moves b i d e ph) (hr : ph.result? = some result) :
    (∃ old, b.docs[i]? = some (d, old) ∧ old.result? = some result) ∨
      e = .scan i ∧ b.docs[i]? = some (d, .waiting) ∧ ∃ shared jobs,
        Asset.scan b.publisher b.files b.now d b.shared = (shared, .ok (jobs, result)) := by
  cases h with
  | scanned shared outcome hd hs =>
    cases outcome with
    | error e => cases hr
    | ok r => cases hr; exact Or.inr ⟨rfl, hd, shared, _, hs⟩
  | failed => cases hr
  | took jobs result' hd => cases hr; exact Or.inl ⟨_, hd, rfl⟩
  | saved l result' store files hl hd => cases hr; exact Or.inl ⟨_, hd, rfl⟩
  | unsaved => cases hr

theorem raised_step {b b' : Batch} {e : Event} {j : Nat} {d : Draft} {err : PublishError}
    (h : Step b e b') (hj : b.docs[j]? = some (d, .raised err)) :
    b'.docs[j]? = some (d, .raised err) := by
  rcases docs_next h hj with hx | ⟨ph', -, hm⟩
  · exact hx
  · rcases hm.before with hd | ⟨_, _, hd⟩ | ⟨_, hd⟩ <;> rw [hj] at hd <;> cases hd

theorem docs_batch {l : Localizer} {now : String} {files : Tree} {store : Store}
    {drafts : List Draft} {j : Nat} {d : Draft} {ph : Phase}
    (h : (l.batch now files store drafts).docs[j]? = some (d, ph)) :
    d ∈ drafts ∧ ph = .waiting := by
  simp only [Localizer.batch, List.getElem?_map, Option.map_eq_some_iff] at h
  obtain ⟨d', hd, he⟩ := h
  cases he
  exact ⟨List.mem_of_getElem? hd, rfl⟩

/-! ## Executions -/

variable {L : Batch → Event → Batch → Prop}

/-- Events one after another, each step of which obeys the law. -/
inductive Execution (L : Batch → Event → Batch → Prop) : Batch → List Event → Batch → Prop where
  | nil (b) : Execution L b [] b
  | cons {b e u es b'} : Step b e u → L b e u → Execution L u es b' →
      Execution L b (e :: es) b'

theorem Execution.trans {b u b' es₁ es₂} (h : Execution L b es₁ u) (k : Execution L u es₂ b') :
    Execution L b (es₁ ++ es₂) b' := by
  induction h with
  | nil => exact k
  | cons hs hl _ ih => exact .cons hs hl (ih k)

theorem Execution.split {b b' es₁ es₂} (h : Execution L b (es₁ ++ es₂) b') :
    ∃ u, Execution L b es₁ u ∧ Execution L u es₂ b' := by
  induction es₁ generalizing b with
  | nil => exact ⟨b, .nil b, h⟩
  | cons e es ih =>
    cases h with
    | cons hs hl hr =>
      obtain ⟨u, hu, hv⟩ := ih hr
      exact ⟨u, .cons hs hl hu, hv⟩

theorem Execution.invariant {I : Batch → Prop} {b es b'} (h : Execution L b es b') (hb : I b)
    (step : ∀ {b e b'}, Step b e b' → L b e b' → I b → I b') : I b' := by
  induction h with
  | nil => exact hb
  | cons hs hl _ ih => exact ih (step hs hl hb)

theorem Execution.drafts {b es b'} (h : Execution L b es b') :
    b'.publisher = b.publisher ∧ b'.docs.map (·.1) = b.docs.map (·.1) := by
  induction h with
  | nil => exact ⟨rfl, rfl⟩
  | cons hs _ _ ih =>
    have hd := step_drafts hs
    exact ⟨ih.1.trans hd.1, ih.2.trans hd.2⟩

/-- The batch after events, none if one of them cannot happen. -/
def after (b : Batch) (es : List Event) : Option Batch := es.foldlM (fun u e => u.step e) b

theorem Execution.after {b es b'} (h : Execution L b es b') : b.after es = some b' := by
  induction h with
  | nil => rfl
  | cons hs _ _ ih => simpa [Batch.after, step_complete hs] using ih

/-- A document with a result had it before, or was scanned on the way. -/
theorem Execution.scanned {b b' : Batch} {es : List Event} {i : Nat} {d : Draft} {ph : Phase}
    {result : Localized} (h : Execution L b es b') (hd : b'.docs[i]? = some (d, ph))
    (hr : ph.result? = some result) :
    (∃ old, b.docs[i]? = some (d, old) ∧ old.result? = some result) ∨
      ∃ es₁ es₂ u shared jobs, es = es₁ ++ .scan i :: es₂ ∧ b.after es₁ = some u ∧
        Asset.scan u.publisher u.files u.now d u.shared = (shared, .ok (jobs, result)) := by
  induction h with
  | nil => exact Or.inl ⟨ph, hd, hr⟩
  | @cons b e u es b' hs _ _ ih =>
    rcases ih hd with ⟨old, hold, hr'⟩ | ⟨es₁, es₂, v, shared, jobs, rfl, hv, hsc⟩
    · rcases docs_step hs hold with hb | hm
      · exact Or.inl ⟨old, hb, hr'⟩
      · rcases hm.result hr' with hb | ⟨rfl, -, shared, jobs, hsc⟩
        · exact Or.inl hb
        · exact Or.inr ⟨[], es, b, shared, jobs, rfl, rfl, hsc⟩
    · refine Or.inr ⟨e :: es₁, es₂, v, shared, jobs, rfl, ?_, hsc⟩
      simpa [Batch.after, step_complete hs] using hv

theorem Execution.at_scan {b₀ b₁ b : Batch}
    {es₁ es₂ : List Event} {i : Nat} (h : Execution L b₀ (es₁ ++ .scan i :: es₂) b)
    (h₁ : b₀.after es₁ = some b₁) :
    ∃ u, Execution L b₀ es₁ b₁ ∧ Step b₁ (.scan i) u ∧ L b₁ (.scan i) u ∧ Execution L u es₂ b := by
  obtain ⟨v, hv, hrest⟩ := h.split
  rw [hv.after] at h₁
  cases h₁
  cases hrest with
  | cons hs hl hr => exact ⟨_, hv, hs, hl, hr⟩

/-- The batch after events each of which passes a check. -/
def checked (c : Batch → Event → Batch → Bool) : Batch → List Event → Option Batch
  | b, [] => some b
  | b, e :: es =>
    match b.step e with
    | some u => if c b e u then checked c u es else none
    | none => none

theorem execution_of_checked {c : Batch → Event → Batch → Bool}
    (hc : ∀ {b e b'}, c b e b' = true → L b e b') {b b' : Batch} {es : List Event}
    (h : checked c b es = some b') : Execution L b es b' := by
  induction es generalizing b with
  | nil => cases h; exact .nil _
  | cons e es ih =>
    unfold checked at h
    split at h
    · next u hu =>
      split at h
      · next hl => exact .cons (step_sound hu) (hc hl) (ih h)
      · cases h
    · cases h

/-! ## A small batch to try properties on -/

def sampleM : Path :=
  ⟨"", ["public", "assets", "hash", "7037807198c22a7d2b0807371d763779a84fdfcf.mp4"]⟩

def sampleN : Path :=
  ⟨"", ["public", "assets", "hash", "942b8d221e13d7c80b531c63629a7243bfecdb7b.mp4"]⟩

def sampleFiles : Tree :=
  ⟨[(["m.mp4"], .file (.bytes [1, 2, 3])), (["n.mp4"], .file (.bytes [4, 5])),
    (["public"], .directory), (["public", "assets"], .directory),
    (["public", "assets", "hash"], .directory)], []⟩

def copiedFiles : Tree := sampleFiles.put sampleM.parts (.file (.bytes [1, 2, 3]))

def sampleDraft (name : String) (urls : List String) : Draft :=
  ⟨⟨"", [name]⟩, Node.root (urls.map fun url => .leaf "image" [] (.image url "" none)), none⟩

end Batch

end DocumentMedia.Asset
