import AdviceWeaver.Ignoring.Rules
import AdviceWeaver.Instrumentation.Rule
import AdviceWeaver.Proofs.Matching.Answers

/-!
# What a pipeline asks

Rules and ignore rules ask matchers at the border of the engine. Since every matcher has one answer,
so has every question, and it can be told by what the matchers answer in any one session.

## Main results

* `Rule.settles_guarded` — a rule takes a matcher that gives no answer for one that does not match.
* `IgnoreRules.settles_covers` — ignore rules take it for one that does.
-/

namespace AdviceWeaver

open Act

variable {ε : Type} {ops : LoaderOps ε} {fits : ε → Prop} {home : Option Home} {size : Nat}
  {records : Array (List String)} {s : Session ε} {t : TypeDescription}

/-- Coherent sessions do not look at the journal. -/
theorem Session.Coherent.settles_log (level : Level) (message : String)
    (fields : List (String × String)) :
    Settles (Session.Coherent ops fits home size records) (log level message fields) (.ok ()) :=
  Act.settles_log (fun _ journal hs => hs.journal journal) level message fields

/-! ### Rules -/

namespace Rule

/-- **A rule takes a matcher** that fails or panics for one that does not match, and its answer is the
one that the matcher gives in any coherent session. -/
theorem settles_guarded (hops : ops.Reliable fits)
    (hs : s.Coherent ops fits home size records) (advice : String) {k : Kind} (m : Matcher k)
    {t : Target k} (ht : t.LivesAt home) :
    Settles (Session.Coherent ops fits home size records) (guarded ops advice m t)
      (.ok (m.agrees ops s t)) := by
  obtain ⟨v, hv⟩ := m.exists_settles_eval hops t ht
  have hverdict : m.verdict ops s t = v := hv.run_eq hs
  refine hv.attempt.bind ?_
  simp only [Matcher.agrees, hverdict]
  rcases v with p | e | hit
  · exact (Session.Coherent.settles_log _ _ _).bind (settles_pure _)
  · exact (Session.Coherent.settles_log _ _ _).bind (settles_pure _)
  · exact settles_pure _

/-- Whether a rule applies to the classes of a loader can be asked anywhere. -/
theorem exists_settles_matchesLoader {good : Session ε → Prop}
    (hjournal : ∀ s journal, good s → good { s with journal }) (r : Rule) (l : LoaderDescription) :
    ∃ hit, Settles good (r.matchesLoader ops l) (.ok hit) := by
  obtain ⟨v, hv⟩ := r.loaders.exists_settles_eval_loader hjournal l
  have hlog (level : Level) (message : String) (fields : List (String × String)) :
      Settles good (log level message fields) (.ok ()) := settles_log hjournal level message fields
  rcases v with p | e | hit
  · exact ⟨false, hv.attempt.bind ((hlog _ _ _).bind (settles_pure false))⟩
  · exact ⟨false, hv.attempt.bind ((hlog _ _ _).bind (settles_pure false))⟩
  · exact ⟨hit, hv.attempt.bind (settles_pure hit)⟩

/-- A rule is asked about a loader, and fails with no. -/
theorem settles_matchesLoader (hops : ops.Reliable fits)
    (hs : s.Coherent ops fits home size records) (r : Rule) (l : LoaderDescription) :
    Settles (Session.Coherent ops fits home size records) (r.matchesLoader ops l)
      (.ok (r.loaders.agrees ops s l)) :=
  settles_guarded (k := .loader) hops hs r.advice r.loaders trivial

/-- A rule is asked about a type, after its loader. -/
theorem settles_matchesType (hops : ops.Reliable fits)
    (hs : s.Coherent ops fits home size records) (r : Rule) (ht : t.LivesAt home)
    (l : LoaderDescription) :
    Settles (Session.Coherent ops fits home size records) (r.matchesType ops t l)
      (.ok (r.loaders.agrees ops s l && r.types.agrees ops s t)) := by
  have htypes := settles_guarded (k := .type) hops hs r.advice r.types ht
  refine (settles_matchesLoader hops hs r l).bind ?_
  cases r.loaders.agrees ops s l with
  | false => exact settles_pure _
  | true =>
    refine htypes.bind ?_
    cases r.types.agrees ops s t with
    | false => exact settles_pure _
    | true => exact (Session.Coherent.settles_log _ _ _).bind (settles_pure _)

/-- A rule is asked about a method, and fails with no. -/
theorem settles_matchesMethod (hops : ops.Reliable fits)
    (hs : s.Coherent ops fits home size records) (r : Rule) (m : MethodDescription) :
    Settles (Session.Coherent ops fits home size records) (r.matchesMethod ops m)
      (.ok (r.methods.agrees ops s m)) := by
  have hmethods := settles_guarded (k := .method) (t := m) hops hs r.advice r.methods trivial
  refine hmethods.bind ?_
  cases r.methods.agrees ops s m with
  | false => exact settles_pure _
  | true => exact (Session.Coherent.settles_log _ _ _).bind (settles_pure _)

end Rule

/-! ### Ignore rules -/

/-- Whether a matcher answers with yes in a session, or gives no answer. -/
def Matcher.agreesOrFails (ops : LoaderOps ε) (s : Session ε) {k : Kind} (m : Matcher k)
    (t : Target k) : Bool :=
  match m.verdict ops s t with
  | .ok (.ok hit) => hit
  | _ => true

/-- An answer counts as a hit unless it is no. -/
def Matcher.countsAsHit : Answer → Bool
  | .ok hit => hit
  | .error _ => true

/-- A verdict tells whether a matcher agrees or fails. -/
theorem Matcher.agreesOrFails_eq {k : Kind} {m : Matcher k} {t : Target k} {answer : Answer}
    (h : m.verdict ops s t = .ok answer) : m.agreesOrFails ops s t = countsAsHit answer := by
  unfold agreesOrFails countsAsHit
  rw [h]
  cases answer <;> rfl

namespace IgnoreRules

/-- The matchers of the rules may fail, but do not panic in fit worlds. -/
structure NeverPanic (ops : LoaderOps ε) (fits : ε → Prop) (rules : IgnoreRules) : Prop where
  loaders {s : Session ε} (l : LoaderDescription) : fits s.world →
    ∃ answer, rules.loaders.verdict ops s l = .ok answer
  types {s : Session ε} (t : TypeDescription) : fits s.world →
    ∃ answer, rules.types.verdict ops s t = .ok answer

/-- Whether the rules hit a class of a loader, by what their matchers answer in a session. A matcher
that gives no answer counts as a hit. -/
def ignores (ops : LoaderOps ε) (s : Session ε) (rules : IgnoreRules) (t : TypeDescription)
    (l : LoaderDescription) : Bool :=
  rules.loaders.agreesOrFails ops s l || rules.types.agreesOrFails ops s t

/-- Ignore rules hit a class if the answer about its loader or that about itself counts as a hit. -/
theorem settles_covers_of {good : Session ε → Prop}
    (hjournal : ∀ s journal, good s → good { s with journal }) {rules : IgnoreRules}
    {l : LoaderDescription} {answer answer' : Answer}
    (hloaders : Settles good (rules.loaders.eval ops l) (.ok answer))
    (htypes : Settles good (rules.types.eval ops t) (.ok answer')) :
    Settles good (rules.covers ops t l) (.ok (Matcher.countsAsHit answer || Matcher.countsAsHit answer')) := by
  refine hloaders.bind ?_
  rcases answer with e | _ | _
  · exact (settles_log hjournal _ _ _).bind ((settles_pure true).bind (settles_pure _))
  · refine (settles_pure false).bind (htypes.bind ?_)
    rcases answer' with e | hit
    · exact (settles_log hjournal _ _ _).bind (settles_pure _)
    · exact settles_pure _
  · exact (settles_pure true).bind (settles_pure _)

/-- **Ignore rules** settle whether a class is ignored. -/
theorem settles_covers (hops : ops.Reliable fits) {rules : IgnoreRules}
    (hrules : rules.NeverPanic ops fits) (hs : s.Coherent ops fits home size records)
    (ht : t.LivesAt home) (l : LoaderDescription) :
    Settles (Session.Coherent ops fits home size records) (rules.covers ops t l)
      (.ok (rules.ignores ops s t l)) := by
  obtain ⟨v, hv⟩ := rules.loaders.exists_settles_eval hops l trivial
  obtain ⟨w, hw⟩ := rules.types.exists_settles_eval hops t ht
  obtain ⟨answer, hanswer⟩ := hrules.loaders l hs.world
  obtain ⟨answer', hanswer'⟩ := hrules.types t hs.world
  obtain rfl : v = .ok answer := (hv.run_eq hs).symm.trans hanswer
  obtain rfl : w = .ok answer' := (hw.run_eq hs).symm.trans hanswer'
  rw [ignores, Matcher.agreesOrFails_eq hanswer, Matcher.agreesOrFails_eq hanswer']
  exact settles_covers_of (fun _ journal hs => hs.journal journal) hv hw

end IgnoreRules

end AdviceWeaver
