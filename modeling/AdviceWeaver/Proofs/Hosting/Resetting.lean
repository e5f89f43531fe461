import AdviceWeaver.Proofs.Hosting.Batching
import AdviceWeaver.Proofs.Pipeline.Installing

/-!
# Classes that a reset restores

A pipeline that is taken out has the classes on its record transformed again, and the host may refuse
this for any of them. An account of such a reset is honest (`Pipeline.Honest`) if it counts those classes
that were restored, and if those that were not are still on record.

A reset does not look at the answers of the host. It counts the classes that it asked for, and empties
its record in any case. So its account is honest just if no class was refused.

## Main results

* `Pipeline.honest_iff` — when the account of a reset is honest.
* `Pipeline.exists_calls_resetOn` — what is asked of the host, and what comes out.
-/

namespace AdviceWeaver

open Act

/-! ### Restored classes -/

section Restored

variable {calls : List RetransformCall} {c : LoadedClass}

/-- The class was transformed again, alone or together with others. -/
def RetransformCall.Restored (calls : List RetransformCall) (c : LoadedClass) : Prop :=
  ∃ call ∈ calls, c ∈ call.classes ∧ call.answer = .ok ()

instance (calls : List RetransformCall) : DecidablePred (RetransformCall.Restored calls) := fun c =>
  decidable_of_iff (∃ call ∈ calls, c ∈ call.classes ∧ call.answer.isOk = true) <| by
    have hok (answer : Except HostError Unit) : answer.isOk = true ↔ answer = .ok () := by
      rcases answer with e | ⟨⟩ <;> simp [Except.isOk, Except.toBool]
    simp only [hok, RetransformCall.Restored]

/-- Nothing is asked for a batch but its own classes. -/
theorem Attempts.subset {batch : List LoadedClass} (h : Attempts batch calls)
    {call : RetransformCall} (hcall : call ∈ calls) : call.classes ⊆ batch := by
  cases h with
  | accepted =>
    rw [List.mem_singleton.1 hcall]
    exact List.Subset.refl batch
  | @refused e singles hsingles =>
    rcases List.mem_cons.1 hcall with rfl | hcall
    · exact List.Subset.refl batch
    · have hmem : call.classes ∈ batch.map ([·]) := hsingles ▸ List.mem_map_of_mem hcall
      obtain ⟨c, hc, heq⟩ := List.mem_map.1 hmem
      rw [← heq]
      exact List.cons_subset.2 ⟨hc, List.nil_subset batch⟩

/-- A class that was restored is one of those that were asked for. -/
theorem mem_of_restored {pieces : List (List LoadedClass)} {groups : List (List RetransformCall)}
    (h : List.Forall₂ Attempts pieces groups) (hc : RetransformCall.Restored groups.flatten c) :
    c ∈ pieces.flatten := by
  obtain ⟨call, hcall, hmem, -⟩ := hc
  induction h with
  | nil => cases hcall
  | @cons piece calls pieces groups hpiece _ ih =>
    rw [List.flatten_cons] at hcall ⊢
    rcases List.mem_append.1 hcall with hcall | hcall
    · exact List.mem_append_left _ (hpiece.subset hcall hmem)
    · exact List.mem_append_right _ (ih hcall)

end Restored

/-- A session in which a record was cleared. -/
def Session.cleared {ε : Type} (s : Session ε) (id : RecordId) : Session ε :=
  { s with records := s.records.modify id fun _ => [] }

/-- Nothing is on a record that was cleared. -/
theorem Session.recordedBy_cleared {ε : Type} (s : Session ε) (id : RecordId) :
    (s.cleared id).recordedBy id = [] := by
  unfold recordedBy cleared
  rw [Array.getElem?_modify, if_pos rfl]
  cases s.records[id]? <;> rfl

namespace Pipeline

/-! ### Honest accounts -/

section Honest

variable {names kept : List String} {loaded : List LoadedClass} {calls : List RetransformCall}
  {count : Nat}

/-- The account of a reset, where `names` are the names on record before, `kept` those on record
afterwards, and `calls` is what was asked of the host: as many classes are counted as were restored, and
a class on record that was not restored stays there. -/
structure Honest (names : List String) (loaded : List LoadedClass) (calls : List RetransformCall)
    (count : Nat) (kept : List String) : Prop where
  count_eq : count = (loaded.filter (RetransformCall.Restored calls)).length
  mem_kept : ∀ c ∈ loaded, c.name ∈ names → ¬ RetransformCall.Restored calls c → c.name ∈ kept

/-- If only classes on record are asked for, all of them are counted, and none is kept, **the account
is honest** just if the host refused none. -/
theorem honest_iff (hcalls : ∀ c, RetransformCall.Restored calls c → c.name ∈ names)
    (hcount : count = (loaded.filter (·.name ∈ names)).length) :
    Honest names loaded calls count []
      ↔ ∀ c ∈ loaded, c.name ∈ names → RetransformCall.Restored calls c := by
  constructor
  · intro h c hc hname
    by_contra hrefused
    exact absurd (h.mem_kept c hc hname hrefused) List.not_mem_nil
  · refine fun hall => ⟨hcount.trans (congrArg List.length ?_), fun c hc hname hrefused => ?_⟩
    · refine List.filter_congr fun c hc => decide_eq_decide.2 ⟨hall c hc, hcalls c⟩
    · exact absurd (hall c hc hname) hrefused

end Honest

variable {ε : Type} {hosts : HostOps ε} {h : HostId} {p : Pipeline} {s : Session ε}
  {good : Session ε → Prop}

/-! ### Runs of a reset -/

section Runs

variable (hjournal : ∀ s journal, good s → good { s with journal })
include hjournal

/-- What is done for a pipeline that was unregistered, as soon as the host has said which classes it
has. -/
theorem exists_calls_restoreOn (hloaded : Safe good (hosts.loadedClasses h))
    (hretransform : ∀ cs, Safe good (hosts.retransform h cs)) (hs : good s) :
    ∃ answer s₁, (hosts.loadedClasses h).run s = (.ok answer, s₁)
      ∧ (∀ e, answer = .error e → (p.restoreOn hosts h).run s = (.ok (.error e), s₁))
      ∧ ∀ loaded, answer = .ok loaded → ∃ calls s₂,
        let restore := loaded.filter (·.name ∈ s.recordedBy p.record)
        hosts.Makes h calls s₁ s₂
          ∧ (p.restoreOn hosts h).run s = (.ok (.ok restore.length), s₂.cleared p.record)
          ∧ (∀ c ∈ restore, RetransformCall.Settled calls c)
          ∧ ∀ c, RetransformCall.Restored calls c → c ∈ restore := by
  obtain ⟨answer, s₁, hrun, hs₁⟩ := hloaded s hs
  refine ⟨answer, s₁, hrun, ?_, ?_⟩
  · rintro e rfl
    exact (run_bind_ok rfl).trans (run_bind_ok hrun)
  · rintro loaded rfl
    obtain ⟨pieces, groups, s₂, hrun', hcuts, hall, hmakes, hsettled⟩ :=
      exists_calls_retransformInBatches hjournal (fun cs _ => hretransform cs) hs₁
    refine ⟨groups.flatten, s₂, hmakes, ?_, hsettled, fun c hc => ?_⟩
    · refine (run_bind_ok rfl).trans ((run_bind_ok hrun).trans ?_)
      simp only [List.contains_eq_mem]
      exact run_bind_ok hrun'
    · rw [← hcuts.flatten]
      exact mem_of_restored hall hc

/-- **What a reset comes to.** -/
theorem exists_calls_resetOn (hremove : Safe good (hosts.removeTransformer h (.pipeline p)))
    (hloaded : Safe good (hosts.loadedClasses h))
    (hretransform : ∀ cs, Safe good (hosts.retransform h cs)) (hs : good s) :
    ∃ found s₁ s₂ answer s₃, (hosts.removeTransformer h (.pipeline p)).run s = (.ok found, s₁)
      ∧ s₁.SameButJournal s₂ ∧ (hosts.loadedClasses h).run s₂ = (.ok answer, s₃)
      ∧ (∀ e, answer = .error e → (p.resetOn hosts h).run s = (.ok (.error e), s₃))
      ∧ ∀ loaded, answer = .ok loaded → ∃ calls s₄ count, hosts.Makes h calls s₃ s₄
        ∧ (p.resetOn hosts h).run s = (.ok (.ok count), s₄.cleared p.record)
        ∧ count = (loaded.filter (·.name ∈ s₁.recordedBy p.record)).length
        ∧ (s₄.cleared p.record).recordedBy p.record = []
        ∧ (∀ c ∈ loaded, c.name ∈ s₁.recordedBy p.record →
          RetransformCall.Restored calls c ∨ ∃ e, ⟨[c], .error e⟩ ∈ calls)
        ∧ (Honest (s₁.recordedBy p.record) loaded calls count
            ((s₄.cleared p.record).recordedBy p.record)
          ↔ ∀ c ∈ loaded, c.name ∈ s₁.recordedBy p.record → RetransformCall.Restored calls c) := by
  obtain ⟨found, s₁, hrun, hs₁⟩ := hremove s hs
  -- That the pipeline was not registered is noted in the journal, and nothing else comes of it.
  obtain ⟨s₂, hsame, hs₂, hrest⟩ : ∃ s₂, s₁.SameButJournal s₂ ∧ good s₂
      ∧ (p.resetOn hosts h).run s = (p.restoreOn hosts h).run s₂ := by
    rw [resetOn_eq]
    cases found with
    | true => exact ⟨s₁, .refl s₁, hs₁, run_bind_ok hrun⟩
    | false => exact ⟨_, ⟨_, rfl⟩, hjournal s₁ _ hs₁, (run_bind_ok hrun).trans (run_bind_ok rfl)⟩
  have hrecorded : s₂.recordedBy p.record = s₁.recordedBy p.record := by
    obtain ⟨journal, rfl⟩ := hsame
    rfl
  obtain ⟨answer, s₃, hloaded, hfailed, hlisted⟩ :=
    exists_calls_restoreOn hjournal hloaded hretransform hs₂ (p := p)
  refine ⟨found, s₁, s₂, answer, s₃, hrun, hsame, hloaded, fun e he => hrest.trans (hfailed e he),
    fun loaded hanswer => ?_⟩
  obtain ⟨calls, s₄, hmakes, hrestore, hsettled, hrestored⟩ := hlisted loaded hanswer
  rw [hrecorded] at hrestore hsettled hrestored
  have hnames (c : LoadedClass) (hc : RetransformCall.Restored calls c) :
      c.name ∈ s₁.recordedBy p.record := by
    simpa using (List.mem_filter.1 (hrestored c hc)).2
  refine ⟨calls, s₄, _, hmakes, hrest.trans hrestore, rfl, s₄.recordedBy_cleared p.record,
    fun c hc hname => hsettled c (List.mem_filter.2 ⟨hc, decide_eq_true hname⟩), ?_⟩
  rw [Session.recordedBy_cleared]
  exact honest_iff hnames rfl

end Runs

end Pipeline

/-! ### Two hosts -/

/-- How a host answers is all that the calls depend on. -/
theorem HostOps.Makes.of_retransform_eq {ε : Type} {hosts hosts' : HostOps ε} {h : HostId}
    {calls : List RetransformCall} {s s' : Session ε} (heq : hosts.retransform = hosts'.retransform)
    (hmakes : hosts.Makes h calls s s') : hosts'.Makes h calls s s' := by
  induction hmakes with
  | nil hsame => exact .nil hsame
  | cons hsame hrun _ ih => exact .cons hsame (heq ▸ hrun) ih

namespace Pipeline

/-- Two classes of one name, and one of another name. -/
def sampleTwins : List LoadedClass :=
  [⟨"shop.Order", .bootstrap, true, 0⟩, ⟨"shop.Cart", .bootstrap, true, 1⟩,
    ⟨"shop.Order", ⟨some "AppClassLoader", none⟩, true, 2⟩]

/-- Calls for several classes are refused, and so are some classes on their own. -/
def sampleTwinAnswers (refused : List Nat) (_ : List RetransformCall) (classes : List LoadedClass) :
    Except HostError Unit :=
  if classes.length = 1 ∧ ∀ c ∈ classes, c.handle ∉ refused then .ok ()
  else .error (.retransform "shop.Order" "unmodifiable class")

/-- A host with these classes. -/
def sampleTwinHost (refused : List Nat) : HostOps (List RetransformCall) :=
  { HostOps.writing (sampleTwinAnswers refused) with
    loadedClasses := fun _ => pure (.ok sampleTwins) }

/-- The name of the twins is on the first record. -/
def sampleRecorded : Session (List RetransformCall) :=
  { Session.start [] with records := #[["shop.Order"]] }

/-- The twins are refused together and then restored one by one, and two classes are reported. -/
theorem exists_calls_resetOn_sample :
    ∃ s', (resetOn (sampleTwinHost []) ⟨0, .empty, []⟩ 0).run sampleRecorded = (.ok (.ok 2), s')
      ∧ Honest ["shop.Order"] sampleTwins s'.world 2 (s'.recordedBy 0) := by
  have hremove : Safe (fun _ => True)
      ((sampleTwinHost []).removeTransformer 0 (.pipeline ⟨0, .empty, []⟩)) :=
    fun s _ => ⟨false, s, rfl, trivial⟩
  have hretransform (cs : List LoadedClass) :
      Safe (fun _ => True) ((sampleTwinHost []).retransform 0 cs) :=
    fun s _ => ⟨_, _, HostOps.run_retransform_writing (h := 0) cs s, trivial⟩
  obtain ⟨found, s₁, s₂, answer, s₃, hremoved, ⟨journal, rfl⟩, hloaded, -, hlisted⟩ :=
    exists_calls_resetOn (s := sampleRecorded) (fun _ _ _ => trivial) hremove
      (fun s _ => ⟨_, s, rfl, trivial⟩) hretransform trivial
  cases hremoved
  cases hloaded
  obtain ⟨calls, s₄, count, hmakes, hrun, hcount, -, -, hhonest⟩ := hlisted sampleTwins rfl
  have hanswers : (sampleTwinHost []).retransform
      = (HostOps.writing (sampleTwinAnswers [])).retransform := rfl
  have hworld : s₄.world = calls := (hmakes.of_retransform_eq hanswers).world_eq
  have hrestored : ∀ c ∈ sampleTwins, c.name ∈ ["shop.Order"] →
      RetransformCall.Restored ((resetOn (sampleTwinHost []) ⟨0, .empty, []⟩ 0).run
        sampleRecorded).2.world c := by
    decide +kernel
  have htwo : count = 2 := hcount.trans (by decide)
  rw [htwo] at hrun hhonest
  refine ⟨_, hrun, ?_⟩
  rw [hrun] at hrestored
  rw [← hworld] at hhonest
  exact hhonest.2 hrestored

/-- **A refused class is counted and forgotten:** the host refuses one of the twins on its own as well,
and still two classes are reported, and their name is off the record. -/
theorem resetOn_counts_refused :
    ∃ s', (resetOn (sampleTwinHost [2]) ⟨0, .empty, []⟩ 0).run sampleRecorded = (.ok (.ok 2), s')
      ∧ s'.world.map (·.classes) = [[sampleTwins[0], sampleTwins[2]], [sampleTwins[0]], [sampleTwins[2]]]
      ∧ ¬ Honest ["shop.Order"] sampleTwins s'.world 2 (s'.recordedBy 0) := by
  refine ⟨_, Prod.ext (by decide +kernel) rfl, ?_, ?_⟩
  · decide +kernel
  · intro h
    exact absurd h.count_eq (by decide +kernel)

end Pipeline

end AdviceWeaver
