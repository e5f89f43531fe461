import AdviceWeaver.Proofs.Pipeline.Ignored

/-!
# The calls of a retransformation

A host may refuse any call to transform classes again. What is asked of it is then told by its answers:
the classes go to it in batches, and a batch that it refuses is followed by single calls for the classes
of the batch, whatever the host answers to these. A run is described by the calls it makes, with their
answers (`HostOps.Makes`), and the calls are described batch by batch (`Attempts`).

## Main results

* `cuts_batches` — batches are consecutive, and only the last one may be shorter than the others.
* `exists_calls_retransformInBatches` — which calls are made, and that no class is left out.
-/

namespace AdviceWeaver

open Act

/-! ### Batches -/

section Cuts

variable {α : Type} {size : Nat} {items rest piece : List α} {pieces : List (List α)}

/-- The list is cut into consecutive pieces of one size, the last one possibly shorter. No piece is
empty, so the empty list has none. -/
structure Cuts (size : Nat) (items : List α) (pieces : List (List α)) : Prop where
  flatten : pieces.flatten = items
  full : ∀ piece ∈ pieces.dropLast, piece.length = size
  length_le : ∀ piece ∈ pieces, piece.length ≤ size
  ne_nil : ∀ piece ∈ pieces, piece ≠ []

theorem Cuts.nil : Cuts size ([] : List α) [] :=
  ⟨rfl, nofun, nofun, nofun⟩

/-- A piece in front is full if there are items behind it. -/
theorem Cuts.cons (h : Cuts size rest pieces) (hne : piece ≠ []) (hle : piece.length ≤ size)
    (hfull : rest ≠ [] → piece.length = size) : Cuts size (piece ++ rest) (piece :: pieces) where
  flatten := by rw [List.flatten_cons, h.flatten]
  full := by
    cases pieces with
    | nil => nofun
    | cons next later =>
      have hrest : rest ≠ [] := by
        rw [← h.flatten, List.flatten_cons]
        exact List.append_ne_nil_of_left_ne_nil (h.ne_nil next List.mem_cons_self) _
      rw [List.dropLast_cons_cons, List.forall_mem_cons]
      exact ⟨hfull hrest, h.full⟩
  length_le := List.forall_mem_cons.2 ⟨hle, h.length_le⟩
  ne_nil := List.forall_mem_cons.2 ⟨hne, h.ne_nil⟩

/-- **Batches** hold all items in order, and all of them but the last one are full. -/
theorem cuts_batches (hsize : size ≠ 0) (items : List α) : Cuts size items (batches size items) := by
  induction items using batches.induct size with
  | case1 items h =>
    rcases h with h | rfl
    · exact absurd h hsize
    · rw [batches, if_pos (.inr rfl)]
      exact .nil
  | case2 items h ih =>
    have hcons : Cuts size (items.take size ++ items.drop size)
        (items.take size :: batches size (items.drop size)) := by
      refine ih.cons ?_ (List.length_take_le size items) fun hrest => ?_
      · simpa [List.take_eq_nil_iff] using h
      · -- Items are left behind the piece, so it is not the end of the list.
        have hlt : size < items.length := by simpa using hrest
        exact List.length_take_of_le (Nat.le_of_lt hlt)
    rw [batches, if_neg h]
    rwa [List.take_append_drop] at hcons

end Cuts

/-! ### Calls -/

/-- A call that asks a host to transform classes again, with its answer. -/
structure RetransformCall where
  classes : List LoadedClass
  answer : Except HostError Unit

namespace RetransformCall

/-- The class was transformed again together with others, or was asked for on its own and refused. -/
def Settled (calls : List RetransformCall) (c : LoadedClass) : Prop :=
  (∃ call ∈ calls, c ∈ call.classes ∧ call.answer = .ok ()) ∨ ∃ e, ⟨[c], .error e⟩ ∈ calls

end RetransformCall

/-- What is asked for one batch: if the host refuses the batch, its classes are asked for one at a
time, in order. -/
inductive Attempts (batch : List LoadedClass) : List RetransformCall → Prop
  | accepted : Attempts batch [⟨batch, .ok ()⟩]
  | refused (e : HostError) {singles : List RetransformCall}
      (hsingles : singles.map (·.classes) = batch.map ([·])) :
      Attempts batch (⟨batch, .error e⟩ :: singles)

/-- From `s`, these calls are made one after the other. Between them, nothing but the journal is
written. -/
inductive HostOps.Makes {ε : Type} (hosts : HostOps ε) (h : HostId) :
    List RetransformCall → Session ε → Session ε → Prop
  | nil {s s' : Session ε} (hsame : s.SameButJournal s') : Makes hosts h [] s s'
  | cons {s s₁ s₂ s' : Session ε} {call : RetransformCall} {calls : List RetransformCall}
      (hsame : s.SameButJournal s₁)
      (hrun : (hosts.retransform h call.classes).run s₁ = (.ok call.answer, s₂))
      (hrest : Makes hosts h calls s₂ s') : Makes hosts h (call :: calls) s s'

/-- Every class of a batch is settled by what is asked for the batch. -/
theorem Attempts.settled {batch : List LoadedClass} {calls : List RetransformCall}
    (h : Attempts batch calls) {c : LoadedClass} (hc : c ∈ batch) :
    RetransformCall.Settled calls c := by
  cases h with
  | accepted => exact .inl ⟨_, List.mem_singleton_self _, hc, rfl⟩
  | @refused e singles hsingles =>
    have hmem : [c] ∈ singles.map (·.classes) := by
      rw [hsingles]
      exact List.mem_map_of_mem hc
    obtain ⟨⟨classes, answer⟩, hcall, rfl⟩ := List.mem_map.1 hmem
    rcases answer with e' | ⟨⟩
    · exact .inr ⟨e', List.mem_cons_of_mem _ hcall⟩
    · exact .inl ⟨_, List.mem_cons_of_mem _ hcall, List.mem_singleton_self c, rfl⟩

/-- A class that is settled by some calls is settled by more. -/
theorem RetransformCall.Settled.mono {calls calls' : List RetransformCall} {c : LoadedClass}
    (h : Settled calls c) (hsub : calls ⊆ calls') : Settled calls' c := by
  rcases h with ⟨call, hcall, hc⟩ | ⟨e, hcall⟩
  · exact .inl ⟨call, hsub hcall, hc⟩
  · exact .inr ⟨e, hsub hcall⟩

/-- A class in one of the batches is settled by the calls of all. -/
theorem settled_of_forall₂_attempts {pieces : List (List LoadedClass)}
    {groups : List (List RetransformCall)} (h : List.Forall₂ Attempts pieces groups)
    {c : LoadedClass} (hc : c ∈ pieces.flatten) : RetransformCall.Settled groups.flatten c := by
  induction h with
  | nil => cases hc
  | @cons piece calls pieces groups hpiece _ ih =>
    rw [List.flatten_cons] at hc ⊢
    rcases List.mem_append.1 hc with hc | hc
    · exact (hpiece.settled hc).mono (List.subset_append_left _ _)
    · exact (ih hc).mono (List.subset_append_right _ _)

/-! ### Runs -/

section Runs

variable {ε : Type} {hosts : HostOps ε} {h : HostId} {s s₁ s' : Session ε}
  {calls calls' : List RetransformCall}

namespace HostOps.Makes

/-- What is written to the journal beforehand makes no difference. -/
theorem of_same (hsame : s.SameButJournal s₁) (hmakes : hosts.Makes h calls s₁ s') :
    hosts.Makes h calls s s' := by
  cases hmakes with
  | nil hsame' => exact .nil (hsame.trans hsame')
  | cons hsame' hrun hrest => exact .cons (hsame.trans hsame') hrun hrest

/-- Calls go on after those that were made before. -/
theorem append (hmakes : hosts.Makes h calls s s₁) (hmakes' : hosts.Makes h calls' s₁ s') :
    hosts.Makes h (calls ++ calls') s s' := by
  induction hmakes with
  | nil hsame => exact hmakes'.of_same hsame
  | cons hsame hrun _ ih => exact .cons hsame hrun (ih hmakes')

/-- One call, after which only the journal is written. -/
theorem single {classes : List LoadedClass} {answer : Except HostError Unit}
    (hrun : (hosts.retransform h classes).run s = (.ok answer, s₁)) (hsame : s₁.SameButJournal s') :
    hosts.Makes h [⟨classes, answer⟩] s s' :=
  .cons (.refl s) hrun (.nil hsame)

end HostOps.Makes

variable {good : Session ε → Prop} (hjournal : ∀ s journal, good s → good { s with journal })
include hjournal

/-- One class is asked for once. -/
theorem exists_calls_retransformOne {c : LoadedClass} (hcall : Safe good (hosts.retransform h [c]))
    (hs : good s) : ∃ answer s', (retransformOne hosts h c).run s = (.ok (), s') ∧ good s'
      ∧ hosts.Makes h [⟨[c], answer⟩] s s' := by
  obtain ⟨answer, s₁, hrun, hs₁⟩ := hcall s hs
  rcases answer with e | ⟨⟩
  · exact ⟨.error e, _, run_bind_ok hrun, hjournal s₁ _ hs₁, .single hrun ⟨_, rfl⟩⟩
  · exact ⟨.ok (), s₁, run_bind_ok hrun, hs₁, .single hrun (.refl s₁)⟩

/-- Every class of a list is asked for once, in order. -/
theorem exists_calls_forM_retransformOne {classes : List LoadedClass}
    (hcall : ∀ c ∈ classes, Safe good (hosts.retransform h [c])) (hs : good s) :
    ∃ singles s', (classes.forM (retransformOne hosts h)).run s = (.ok (), s') ∧ good s'
      ∧ hosts.Makes h singles s s' ∧ singles.map (·.classes) = classes.map ([·]) := by
  induction classes generalizing s with
  | nil => exact ⟨[], s, rfl, hs, .nil (.refl s), rfl⟩
  | cons c rest ih =>
    obtain ⟨hc, hrest⟩ := List.forall_mem_cons.1 hcall
    obtain ⟨answer, s₁, hrun, hs₁, hmakes⟩ := exists_calls_retransformOne hjournal hc hs
    obtain ⟨singles, s', hrun', hs', hmakes', hsingles⟩ := ih hrest hs₁
    refine ⟨⟨[c], answer⟩ :: singles, s', (run_bind_ok hrun).trans hrun', hs',
      hmakes.append hmakes', ?_⟩
    rw [List.map_cons, List.map_cons, hsingles]

/-- One batch is asked for, and if need be its classes. -/
theorem exists_calls_retransformBatch {batch : List LoadedClass}
    (hcall : ∀ cs ⊆ batch, Safe good (hosts.retransform h cs)) (hs : good s) :
    ∃ calls s', (retransformBatch hosts h batch).run s = (.ok (), s') ∧ good s'
      ∧ hosts.Makes h calls s s' ∧ Attempts batch calls := by
  obtain ⟨answer, s₁, hrun, hs₁⟩ := hcall batch (List.Subset.refl batch) s hs
  rcases answer with e | ⟨⟩
  · -- The refusal is logged before the classes of the batch are asked for.
    have hone (c : LoadedClass) (hc : c ∈ batch) : Safe good (hosts.retransform h [c]) :=
      hcall [c] (List.cons_subset.2 ⟨hc, List.nil_subset batch⟩)
    obtain ⟨singles, s', hrun', hs', hmakes, hsingles⟩ :=
      exists_calls_forM_retransformOne hjournal hone (hjournal s₁ _ hs₁)
    exact ⟨⟨batch, .error e⟩ :: singles, s', (run_bind_ok hrun).trans hrun', hs',
      .append (.single hrun ⟨_, rfl⟩) hmakes, .refused e hsingles⟩
  · exact ⟨[⟨batch, .ok ()⟩], s₁, run_bind_ok hrun, hs₁, .single hrun (.refl s₁), .accepted⟩

/-- Batches are asked for one after the other, whatever was refused before. -/
theorem exists_calls_forM_retransformBatch {pieces : List (List LoadedClass)}
    (hcall : ∀ batch ∈ pieces, ∀ cs ⊆ batch, Safe good (hosts.retransform h cs)) (hs : good s) :
    ∃ groups s', (pieces.forM (retransformBatch hosts h)).run s = (.ok (), s') ∧ good s'
      ∧ hosts.Makes h groups.flatten s s' ∧ List.Forall₂ Attempts pieces groups := by
  induction pieces generalizing s with
  | nil => exact ⟨[], s, rfl, hs, .nil (.refl s), .nil⟩
  | cons batch rest ih =>
    obtain ⟨hbatch, hrest⟩ := List.forall_mem_cons.1 hcall
    obtain ⟨calls, s₁, hrun, hs₁, hmakes, hattempts⟩ :=
      exists_calls_retransformBatch hjournal hbatch hs
    obtain ⟨groups, s', hrun', hs', hmakes', hall⟩ := ih hrest hs₁
    exact ⟨calls :: groups, s', (run_bind_ok hrun).trans hrun', hs', hmakes.append hmakes',
      .cons hattempts hall⟩

/-- **Transforming classes again** never gives up, whatever calls the host refuses. The classes are cut
into batches of 256; each batch is asked for, and after a refusal each of its classes, in order. So
every class is in a call that the host accepted, or was refused on its own. -/
theorem exists_calls_retransformInBatches {classes : List LoadedClass}
    (hcall : ∀ cs ⊆ classes, Safe good (hosts.retransform h cs)) (hs : good s) :
    ∃ pieces groups s', (retransformInBatches hosts h classes).run s = (.ok (), s')
      ∧ Cuts 256 classes pieces ∧ List.Forall₂ Attempts pieces groups
      ∧ hosts.Makes h groups.flatten s s'
      ∧ ∀ c ∈ classes, RetransformCall.Settled groups.flatten c := by
  have hcuts : Cuts batchSize classes (batches batchSize classes) := cuts_batches (by decide) classes
  have hbatch : ∀ batch ∈ batches batchSize classes, ∀ cs ⊆ batch,
      Safe good (hosts.retransform h cs) := fun batch hbatch cs hcs =>
    hcall cs (List.Subset.trans hcs (subset_of_mem_batches (by decide) hbatch))
  obtain ⟨groups, s', hrun, -, hmakes, hall⟩ :=
    exists_calls_forM_retransformBatch hjournal hbatch hs
  refine ⟨_, groups, s', hrun, hcuts, hall, hmakes, fun c hc => ?_⟩
  rw [← hcuts.flatten] at hc
  exact settled_of_forall₂_attempts hall hc

end Runs

/-! ### Hosts that write their calls down -/

/-- A host that writes its calls down, and answers a call by what it was asked before. -/
def HostOps.writing (answers : List RetransformCall → List LoadedClass → Except HostError Unit) :
    HostOps (List RetransformCall) where
  addTransformer _ _ := pure ()
  removeTransformer _ _ := pure false
  supportsRetransform _ := pure true
  loadedClasses _ := pure (.ok [])
  retransform _ cs := do
    let asked ← Act.world
    Act.modifyWorld (· ++ [⟨cs, answers asked cs⟩])
    return answers asked cs

namespace HostOps

variable {answers : List RetransformCall → List LoadedClass → Except HostError Unit} {h : HostId}

/-- A host that writes down what it is asked writes one call, with its answer. -/
theorem run_retransform_writing (cs : List LoadedClass) (s : Session (List RetransformCall)) :
    ((writing answers).retransform h cs).run s = (.ok (answers s.world cs),
      { s with world := s.world ++ [⟨cs, answers s.world cs⟩] }) :=
  rfl

/-- **The calls that a run makes** are those that the host wrote down. -/
theorem Makes.world_eq {calls : List RetransformCall} {s s' : Session (List RetransformCall)}
    (hmakes : (writing answers).Makes h calls s s') : s'.world = s.world ++ calls := by
  induction hmakes with
  | nil hsame =>
    obtain ⟨journal, rfl⟩ := hsame
    exact (List.append_nil _).symm
  | @cons s s₁ s₂ s' call calls hsame hrun _ ih =>
    obtain ⟨journal, rfl⟩ := hsame
    rw [run_retransform_writing] at hrun
    obtain ⟨hanswer, rfl⟩ := Prod.mk.inj hrun
    rw [ih, Except.ok.inj hanswer, List.append_assoc, List.singleton_append]

end HostOps

/-- A host that refuses all calls for several classes, and every third one for a single class. -/
def sampleRefusingHost : HostOps (List RetransformCall) :=
  .writing fun asked cs =>
    if cs.length = 1 ∧ asked.length % 3 ≠ 0 then .ok () else .error .retransformUnsupported

/-- The classes of two batches. -/
def sampleLoaded : List LoadedClass :=
  (List.range 300).map fun i => ⟨"shop.C" ++ toString i, .bootstrap, true, i⟩

/-- Both batches are refused, and all classes asked for on their own. The host writes this down. -/
theorem exists_calls_retransformInBatches_sample :
    ∃ pieces groups s',
      (retransformInBatches sampleRefusingHost 0 sampleLoaded).run (.start []) = (.ok (), s')
      ∧ Cuts 256 sampleLoaded pieces ∧ List.Forall₂ Attempts pieces groups
      ∧ s'.world = groups.flatten
      ∧ ∀ c ∈ sampleLoaded, RetransformCall.Settled groups.flatten c := by
  have hcall : ∀ cs ⊆ sampleLoaded, Safe (fun _ => True) (sampleRefusingHost.retransform 0 cs) :=
    fun cs _ s _ => ⟨_, _, HostOps.run_retransform_writing cs s, trivial⟩
  obtain ⟨pieces, groups, s', hrun, hcuts, hall, hmakes, hsettled⟩ :=
    exists_calls_retransformInBatches (fun _ _ _ => trivial) hcall trivial
  exact ⟨pieces, groups, s', hrun, hcuts, hall, hmakes.world_eq, hsettled⟩

end AdviceWeaver
