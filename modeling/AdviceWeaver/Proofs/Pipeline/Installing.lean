import AdviceWeaver.Pipeline.Installation
import AdviceWeaver.Proofs.Hosting.Serving
import AdviceWeaver.Proofs.Pipeline.Building

/-!
# Installing a pipeline and taking it out

Once a pipeline is installed, its record names the classes that it changed. So these are the classes
that are transformed again when it is taken out, and then no class is changed any more.

## Main results

* `Pipeline.ensures_installOn` — an installed pipeline is watched.
* `Pipeline.ensures_resetOn` — no class is changed when a pipeline was taken out.
-/

namespace AdviceWeaver.Pipeline

open Act

variable {ε : Type} {ops : LoaderOps ε} {hosts : HostOps ε} {h : HostId} {M : HostModel ε}
  {s s' s₁ : Session ε} {p : Pipeline}

/-! ### Candidates -/

section Candidates

variable {good : Session ε → Prop} (hjournal : ∀ s journal, good s → good { s with journal })
include hjournal

/-- Whether some rule applies to the loader of a class can be asked anywhere. -/
theorem exists_settles_anyLoaderMatch (c : LoadedClass) (rules : List Rule) :
    ∃ answer, Settles good (mayTransform.anyLoaderMatch ops c rules) (.ok answer) := by
  induction rules with
  | nil => exact ⟨false, settles_pure false⟩
  | cons r rest ih =>
    obtain ⟨answer, hanswer⟩ := ih
    obtain ⟨hit, hhit⟩ : ∃ hit, Settles good (r.matchesLoader ops c.loader) (.ok hit) :=
      r.exists_settles_matchesLoader hjournal c.loader
    cases hit with
    | false => exact ⟨answer, hhit.bind hanswer⟩
    | true => exact ⟨true, hhit.bind (settles_pure true)⟩

/-- Whether a class that exists may be transformed has one answer, wherever it is asked. -/
theorem exists_settles_mayTransform (hcalm : p.ignore.Calm ops) (c : LoadedClass) :
    ∃ may, Settles good (p.mayTransform ops c) (.ok may) := by
  obtain ⟨hit, hcovers⟩ := hcalm.exists_covers
  have hcovers' : Settles good (p.ignore.coversName ops c.name c.loader) (.ok (hit c.name c.loader)) :=
    fun s hs => ⟨s, (hcovers s (.ofName c.name) c.loader).1, hs⟩
  obtain ⟨answer, hanswer⟩ : ∃ answer, Settles good (mayTransform.anyLoaderMatch ops c p.rules)
    (.ok answer) := exists_settles_anyLoaderMatch hjournal c p.rules
  unfold mayTransform
  cases c.modifiable with
  | false => exact ⟨false, settles_pure false⟩
  | true =>
    cases hhit : hit c.name c.loader with
    | false =>
      rw [hhit] at hcovers'
      exact ⟨answer, hcovers'.bind hanswer⟩
    | true =>
      rw [hhit] at hcovers'
      exact ⟨false, hcovers'.bind (settles_pure false)⟩

end Candidates

/-! ### Installing -/

/-- Listed classes may be transformed again under a pipeline. -/
theorem ensures_retransform_watched (hhost : HostContract ops hosts h M)
    (hcalm : p.ignore.Calm ops) (classes : List LoadedClass) :
    Ensures (fun s => M.Watched p s ∧ ∀ c ∈ classes, (M.view s.world).Lists c)
      (retransformInBatches hosts h classes) fun _ => M.Watched p := by
  have hbatches := hhost.ensures_retransformInBatches
    (fun cs s => M.Watched p s ∧ ∀ c ∈ cs, (M.view s.world).Lists c)
    (fun cs s hs => ⟨hs.1.serves.valid, fun c hc =>
      ⟨hs.1.serves.modifiable_of_lists (hs.2 c hc), hs.2 c hc⟩⟩)
    (fun cs s journal hs => ⟨hs.1.of_world_eq rfl rfl, hs.2⟩)
    (fun cs cs' handles s s' hs hreruns hsub _ => ?_) classes
  · exact hbatches.mono fun _ s hs => hs.1
  · obtain ⟨hs', hlisting⟩ := hs.1.of_reruns hhost hcalm.neverPanic hreruns
    refine ⟨hs', fun c hc => ?_⟩
    rw [HostView.Lists, hlisting]
    exact hs.2 c (hsub hc)

/-- A pipeline that joins a host without transformers is watched, since no class is changed. -/
theorem ensures_addTransformer (hhost : HostContract ops hosts h M) :
    Ensures (fun s => p.record < s.records.size ∧ M.Serves [] (fun _ _ => False) s)
      (hosts.addTransformer h (.pipeline p)) fun _ => M.Watched p := by
  rintro s ⟨hrecord, hs⟩ ⟨⟩ s' hrun
  have hbecomes := hhost.addTransformer hs.valid hrun
  refine ⟨hbecomes.records ▸ hrecord, hbecomes.valid, ?_, ?_, ?_, ?_⟩
  all_goals rw [hbecomes.view]
  · rw [hs.transformers]
    rfl
  · exact hs.modifiable
  · exact hs.named
  · exact fun hclass hchanged => (hs.changed hclass hchanged).elim

section Registered

variable {start registered gone : Session ε → Prop}
  (hvalid : ∀ s, registered s → M.valid s.world)
  (hrests : ∀ s s', registered s → M.Rests s s' → registered s')
include hvalid hrests

/-- Candidates are listed classes. -/
theorem ensures_candidates (hcalm : p.ignore.Calm ops) (loaded : List LoadedClass) :
    Ensures (fun s => registered s ∧ ∀ c ∈ loaded, (M.view s.world).Lists c)
      (loaded.filterM (p.mayTransform ops)) fun candidates s => registered s
        ∧ ∀ c ∈ candidates, (M.view s.world).Lists c := by
  rintro s ⟨hs, hlists⟩ candidates s' hrun
  have hasked (c : LoadedClass) : Ensures (M.Rests s) (p.mayTransform ops c) fun _ => M.Rests s := by
    obtain ⟨may, hmay⟩ : ∃ may, Settles (M.Rests s) (p.mayTransform ops c) (.ok may) :=
      exists_settles_mayTransform (fun _ _ hs => ⟨hs.valid, hs.view, hs.records⟩) hcalm c
    exact hmay.safe.ensures
  obtain ⟨hrested, hfound⟩ :=
    ensures_filterM hasked s ⟨hvalid s hs, rfl, rfl⟩ candidates s' hrun
  refine ⟨hrests s s' hs hrested, fun c hc => ?_⟩
  rw [hrested.view]
  exact hlists c (hfound c hc)

/-- Installing a pipeline, by what holds before, while it is registered, and after it was taken out again
because the host refused. -/
theorem ensures_installOn_of (hhost : HostContract ops hosts h M) (hcalm : p.ignore.Calm ops)
    (hadd : Ensures start (hosts.addTransformer h (.pipeline p)) fun _ => registered)
    (hremove : Ensures registered (hosts.removeTransformer h (.pipeline p)) fun _ => gone)
    (hretransform : ∀ classes : List LoadedClass,
      Ensures (fun s => registered s ∧ ∀ c ∈ classes, (M.view s.world).Lists c)
        (retransformInBatches hosts h classes) fun _ => registered) :
    Ensures start (p.installOn ops hosts h) fun answer s => match answer with
      | .ok () => registered s
      | .error _ => gone s := by
  have hsupports : Ensures registered (hosts.supportsRetransform h) fun _ => registered :=
    fun s hs answer s' hrun => hrests s s' hs (hhost.supportsRetransform (hvalid s hs) hrun)
  have hloaded : Ensures registered (hosts.loadedClasses h) fun answer s => registered s
      ∧ ∀ loaded, answer = .ok loaded → ∀ c ∈ loaded, (M.view s.world).Lists c := by
    intro s hs answer s' hrun
    obtain ⟨hrested, hlisted⟩ := hhost.loadedClasses (hvalid s hs) hrun
    refine ⟨hrests s s' hs hrested, fun loaded hanswer c hc => ?_⟩
    rw [hrested.view]
    exact (hlisted loaded hanswer c).1 hc
  have hrefused (e : HostError) : Ensures registered (do
      let _ ← hosts.removeTransformer h (.pipeline p)
      return .error e : Act ε (Except HostError Unit)) fun answer s => match answer with
        | .ok () => registered s
        | .error _ => gone s := by
    refine hremove.bind fun _ => (ensures_pure _).mono ?_
    rintro answer s ⟨rfl, hs⟩
    exact hs
  refine hadd.bind fun _ => hsupports.bind fun supported => ?_
  cases supported with
  | false => exact hrefused _
  | true =>
    refine hloaded.bind fun answer => ?_
    rcases answer with e | loaded
    · exact fun s hs => hrefused e s hs.1
    · refine fun s hs => ((ensures_candidates hvalid hrests hcalm loaded).bind fun candidates => ?_)
        s ⟨hs.1, hs.2 loaded rfl⟩
      have hlog : Ensures (fun s => registered s ∧ ∀ c ∈ candidates, (M.view s.world).Lists c)
          (log .debug ("retransforming " ++ toString candidates.length ++ " loaded classes") [])
          fun _ s => registered s ∧ ∀ c ∈ candidates, (M.view s.world).Lists c :=
        (settles_log (fun s journal hs =>
          ⟨hrests s _ hs.1 ⟨hvalid s hs.1, rfl, rfl⟩, hs.2⟩) _ _ _).safe.ensures
      refine hlog.bind fun _ => (hretransform candidates).bind fun _ => (ensures_pure _).mono ?_
      rintro answer s ⟨rfl, hs⟩
      exact hs

end Registered

/-- **Installing a pipeline** on a host without transformers, where no class is changed: from then on
its record names the classes that are. -/
theorem ensures_installOn (hhost : HostContract ops hosts h M) (hcalm : p.ignore.Calm ops) :
    Ensures (fun s => p.record < s.records.size ∧ M.Serves [] (fun _ _ => False) s)
      (p.installOn ops hosts h) fun answer s => answer = .ok () → M.Watched p s := by
  have hinstall := ensures_installOn_of (fun s (hs : M.Watched p s) => hs.serves.valid)
    (fun s s' hs hrests => hs.of_rests hrests) hhost hcalm (ensures_addTransformer hhost) ensures_true
    (ensures_retransform_watched hhost hcalm)
  refine hinstall.mono fun answer s hs hok => ?_
  subst hok
  exact hs

/-! ### Taking out -/

/-- Listed classes that are transformed again without transformers are not changed any more. -/
theorem ensures_retransform_restored (hhost : HostContract ops hosts h M)
    (classes : List LoadedClass) :
    Ensures (fun s => M.Serves [] (fun handle _ => ∃ c ∈ classes, c.handle = handle) s
        ∧ ∀ c ∈ classes, (M.view s.world).Lists c)
      (retransformInBatches hosts h classes) fun _ => M.Serves [] fun _ _ => False := by
  have hbatches := hhost.ensures_retransformInBatches
    (fun cs s => M.Serves [] (fun handle _ => ∃ c ∈ cs, c.handle = handle) s
      ∧ ∀ c ∈ cs, (M.view s.world).Lists c)
    (fun cs s hs => ⟨hs.1.valid, fun c hc =>
      ⟨hs.1.modifiable_of_lists (hs.2 c hc), hs.2 c hc⟩⟩)
    (fun cs s journal hs => ⟨hs.1.of_world_eq rfl, hs.2⟩)
    (fun cs cs' handles s s' hs hreruns hsub hdone => ?_) classes
  · refine hbatches.mono fun _ s hs => hs.1.mono fun handle k _ hleft => ?_
    obtain ⟨c, hc, -⟩ := hleft
    cases hc
  · obtain ⟨hs', hlisting⟩ := hs.1.of_reruns_nil hreruns
    refine ⟨hs'.mono fun handle k _ hleft => ?_, fun c hc => ?_⟩
    · obtain ⟨⟨c, hc, rfl⟩, hnot⟩ := hleft
      exact ⟨c, (hdone c hc).resolve_right hnot, rfl⟩
    · rw [HostView.Lists, hlisting]
      exact hs.2 c (hsub hc)

/-- Only the classes in the record may be changed when a pipeline was unregistered. -/
theorem ensures_removeTransformer (hhost : HostContract ops hosts h M) :
    Ensures (M.Watched p) (hosts.removeTransformer h (.pipeline p))
      fun _ s => M.Serves [] (fun _ k => k.name ∈ s.recordedBy p.record) s := by
  intro s hs found s' hrun
  have hbecomes := hhost.removeTransformer hs.serves.valid hrun
  have hrecorded : s'.recordedBy p.record = s.recordedBy p.record := by
    rw [Session.recordedBy, hbecomes.records]
    rfl
  refine ⟨hbecomes.valid, ?_, ?_, ?_, ?_⟩
  · rw [hbecomes.view, hs.serves.transformers]
    simp
  · rw [hbecomes.view]
    exact hs.serves.modifiable
  · rw [hbecomes.view]
    exact hs.serves.named
  · rw [hbecomes.view, hrecorded]
    exact hs.serves.changed

/-- If only classes of certain names are changed, then the listed classes of these names are all that
have to be transformed again. -/
theorem serves_of_names {names : List String} {loaded : List LoadedClass}
    (hs : M.Serves [] (fun _ k => k.name ∈ names) s)
    (hloaded : ∀ c, c ∈ loaded ↔ (M.view s.world).Lists c) :
    M.Serves [] (fun handle _ => ∃ c ∈ loaded.filter (fun c => names.contains c.name),
        c.handle = handle) s
      ∧ ∀ c ∈ loaded.filter (fun c => names.contains c.name), (M.view s.world).Lists c := by
  refine ⟨hs.mono fun handle k hclass hname => ⟨k.listed handle, ?_, rfl⟩, fun c hc => ?_⟩
  · have hlists : (M.view s.world).Lists (k.listed handle) := by
      rw [HostView.Lists, HostView.listing, show (k.listed handle).handle = handle from rfl, hclass]
      rfl
    exact List.mem_filter.2 ⟨(hloaded _).2 hlists, List.contains_iff_mem.2 hname⟩
  · exact (hloaded c).1 (List.mem_filter.1 hc).1

/-- What is left to be done for a pipeline that was unregistered. -/
def restoreOn (hosts : HostOps ε) (p : Pipeline) (h : HostId) : Act ε (Except HostError Nat) := do
  let names ← recorded p.record
  match ← hosts.loadedClasses h with
  | .error e => return .error e
  | .ok loaded =>
    let restore := loaded.filter fun c => names.contains c.name
    retransformInBatches hosts h restore
    clearRecord p.record
    return .ok restore.length

/-- A pipeline that was not registered is taken out all the same. -/
theorem resetOn_eq : p.resetOn hosts h = (do
    if !(← hosts.removeTransformer h (.pipeline p)) then
      log .warn "transformer was not registered" []
    p.restoreOn hosts h) :=
  rfl

/-- **Taking a pipeline out** leaves no class changed. -/
theorem ensures_resetOn (hhost : HostContract ops hosts h M) :
    Ensures (M.Watched p) (p.resetOn hosts h)
      fun answer s => (∃ count, answer = .ok count) → M.Serves [] (fun _ _ => False) s := by
  have hjournal (s : Session ε) (journal : Journal)
      (hs : M.Serves [] (fun _ k => k.name ∈ s.recordedBy p.record) s) :
      M.Serves [] (fun _ k => k.name ∈ { s with journal }.recordedBy p.record) { s with journal } :=
    hs.of_world_eq rfl
  have hrecorded : Ensures
      (fun s => M.Serves [] (fun _ k => k.name ∈ s.recordedBy p.record) s)
      (recorded p.record : Act ε _) fun names s => M.Serves [] (fun _ k => k.name ∈ names) s := by
    intro s hs names s' hrun
    cases hrun
    exact hs
  have hloaded (names : List String) : Ensures (M.Serves [] fun _ k => k.name ∈ names)
      (hosts.loadedClasses h) fun answer s => M.Serves [] (fun _ k => k.name ∈ names) s
        ∧ ∀ loaded, answer = .ok loaded → ∀ c, c ∈ loaded ↔ (M.view s.world).Lists c := by
    intro s hs answer s' hrun
    obtain ⟨hrests, hlisted⟩ := hhost.loadedClasses hs.valid hrun
    refine ⟨hs.of_rests hrests, ?_⟩
    rw [hrests.view]
    exact hlisted
  have hrest : Ensures (fun s => M.Serves [] (fun _ k => k.name ∈ s.recordedBy p.record) s)
      (p.restoreOn hosts h)
      fun answer s => (∃ count, answer = .ok count) → M.Serves [] (fun _ _ => False) s := by
    refine hrecorded.bind fun names => (hloaded names).bind fun answer => ?_
    rcases answer with e | loaded
    · refine (ensures_pure _).mono fun answer s hanswer hok => ?_
      obtain ⟨count, hok⟩ := hok
      rw [hanswer.1] at hok
      cases hok
    · refine fun s hs => ((ensures_retransform_restored hhost _).bind fun _ => ?_) s
        (serves_of_names hs.1 (hs.2 loaded rfl))
      intro s hs answer s' hrun _
      cases hrun
      exact hs.of_world_eq rfl
  rw [resetOn_eq]
  refine (ensures_removeTransformer hhost).bind fun found => ?_
  cases found with
  | true => exact hrest
  | false => exact (settles_log hjournal _ _ _).safe.ensures.bind fun _ => hrest

end AdviceWeaver.Pipeline
