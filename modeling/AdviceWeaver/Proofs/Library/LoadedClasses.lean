import AdviceWeaver.Library.Host
import AdviceWeaver.Proofs.Library.ToolAccounts

/-!
# The loaded classes of a JVM

The host is asked for the loaded classes of its JVM. For each of them the JVM is asked for the signature,
then whether the class can be modified, then for the loader, and the loader for its type; every one of
these questions may fail. A class whose signature cannot be read is not listed, and neither are arrays and
primitive types. A failure of any later question shows in what is listed of the class, but not in
whether it is listed.

What is listed is told from the script of the JVM before (`Jvm.nameAt`, `Jvm.shownAt`). The `i`-th question
for a signature is the one about the `i`-th class, while only the classes that are listed are asked
further; so the proof keeps an account in which both numbers are tracked (`enumerating`).

## Main results

* `JvmHost.returns_describeClass` — one class: it is listed, or its reference is given back.
* `JvmHost.loadedClasses_complete` — just the classes with a name are listed, in order, and nothing but
  the references to them stays behind.
-/

namespace AdviceWeaver

open Act Library Account

variable {α : Type} {jvm : Jvm} {asked named : Nat} {refs : List JvmRef} {blocks : List Nat}

/-! ### What a JVM tells of its classes -/

namespace Jvm

/-- The reference that the JVM hands out to a loaded class if it is asked for all of them. -/
def handleAt (jvm : Jvm) (i : Nat) : JvmRef :=
  ⟨jvm.handedOut + 1 + i, .loadedClass i⟩

/-- The call number `k` of a function succeeds. -/
def succeeds (jvm : Jvm) (f : ToolFunction) (k : Nat) : Bool :=
  !jvm.missing.contains f && ((jvm.behaviour.codes f)[k]?).getD 0 == 0

/-- The binary name of a loaded class, if its signature can be read and is one of a class. -/
def nameAt (jvm : Jvm) (i : Nat) : Option String :=
  if jvm.succeeds .getClassSignature i then
    JvmHost.nameOfSignature
      (Text.Utf8.decode ((jvm.class_ i).signature.takeWhile (· ≠ 0)))
  else none

/-- Those of the loaded classes that have a name. -/
def listed (jvm : Jvm) (numbers : List Nat) : List (Nat × String) :=
  numbers.filterMap fun i => (jvm.nameAt i).map fun name => (i, name)

/-- What is shown of the class that is listed at place `k`: its name, the reference to it, and whether it
can be modified, which it cannot if that is not found out. -/
def shownAt (jvm : Jvm) (k : Nat) (entry : Nat × String) : String × Nat × Bool :=
  (entry.2, (jvm.handleAt entry.1).number,
    jvm.succeeds .isModifiableClass k && (jvm.class_ entry.1).modifiable)

end Jvm

/-- What is shown of a listed class, besides its loader. -/
def LoadedClass.shown (c : LoadedClass) : String × Nat × Bool :=
  (c.name, c.handle, c.modifiable)

namespace Jvm

/-- The signature of a loaded class can be read, and is the one of a class of this binary name. -/
def Named (jvm : Jvm) (i : Nat) (name : String) : Prop :=
  jvm.succeeds .getClassSignature i = true ∧ ∃ internal,
    Text.Utf8.decode ((jvm.class_ i).signature.takeWhile (· ≠ 0)) = "L" ++ internal ++ ";"
      ∧ name = binaryName internal

/-- These classes are listed for a JVM, which is this other one afterwards: just those with a name, in the
order of the JVM, each with what is found out of it. The references to them stay, and nothing else. -/
structure Enumerates (jvm : Jvm) (entries : List (Nat × String)) (classes : List LoadedClass)
    (jvm' : Jvm) : Prop where
  ordered : entries.Pairwise fun a b => a.1 < b.1
  complete : ∀ i name, (i, name) ∈ entries ↔ i < jvm.classes.size ∧ jvm.Named i name
  shown : classes.map LoadedClass.shown = entries.mapIdx jvm.shownAt
  refs : jvm'.refs.Perm (entries.map (fun entry => jvm.handleAt entry.1) ++ jvm.refs)
  blocks : jvm'.blocks.Perm jvm.blocks
  badReturns : jvm'.badReturns = jvm.badReturns

end Jvm

/-- Only the signatures of classes have a name in them. -/
theorem JvmHost.nameOfSignature_eq_some_iff {signature name : String} :
    nameOfSignature signature = some name
      ↔ ∃ internal, signature = "L" ++ internal ++ ";" ∧ name = binaryName internal := by
  constructor
  · intro h
    unfold nameOfSignature at h
    split at h
    · next rest hsignature =>
      split at h
      · next hlast =>
        cases h
        refine ⟨String.ofList rest.dropLast, ?_, rfl⟩
        have hrest : rest.dropLast ++ [';'] = rest := List.dropLast_append_getLast? ';' hlast
        rw [← String.toList_inj, hsignature, String.toList_append, String.toList_append,
          String.toList_ofList, ← hrest]
        simp
      · cases h
    · cases h
  · rintro ⟨internal, rfl, rfl⟩
    simp [nameOfSignature, String.toList_append]

namespace Jvm

/-- The name that is listed for a class is the one it has. -/
theorem nameAt_eq_some_iff {i : Nat} {name : String} :
    jvm.nameAt i = some name ↔ jvm.Named i name := by
  unfold nameAt Named
  split
  · next h => rw [JvmHost.nameOfSignature_eq_some_iff, and_iff_right h]
  · next h => exact ⟨nofun, fun hnamed => absurd hnamed.1 h⟩

/-- The listed classes are those among the numbers that have a name. -/
theorem mem_listed_iff {numbers : List Nat} {i : Nat} {name : String} :
    (i, name) ∈ jvm.listed numbers ↔ i ∈ numbers ∧ jvm.Named i name := by
  simp only [listed, List.mem_filterMap, Option.map_eq_some_iff, Prod.mk.injEq,
    ← nameAt_eq_some_iff]
  constructor
  · rintro ⟨j, hj, _, hname, rfl, rfl⟩
    exact ⟨hj, hname⟩
  · rintro ⟨hi, hname⟩
    exact ⟨i, hi, name, hname, rfl, rfl⟩

/-- The classes are listed in the order of their numbers. -/
theorem pairwise_listed (count : Nat) :
    (jvm.listed (List.range' 0 count)).Pairwise fun a b => a.1 < b.1 := by
  refine List.Pairwise.filterMap _ (fun i j hij a ha b hb => ?_) List.pairwise_lt_range'
  obtain ⟨_, -, rfl⟩ := Option.map_eq_some_iff.1 ha
  obtain ⟨_, -, rfl⟩ := Option.map_eq_some_iff.1 hb
  exact hij

end Jvm

/-! ### The account -/

/-- The classes of the JVM are as they were, and of the codes for the first two questions as many are taken
as questions were asked. -/
structure Enumerating (jvm : Jvm) (asked named : Nat) (w : Library) : Prop where
  classes : w.jvm.classes = jvm.classes
  missing : w.jvm.missing = jvm.missing
  deallocates : w.jvm.Deallocates
  signatures : jvm.missing.contains .getClassSignature = false →
    w.jvm.behaviour.codes .getClassSignature
      = (jvm.behaviour.codes .getClassSignature).drop asked
  modifiables : jvm.missing.contains .isModifiableClass = false →
    w.jvm.behaviour.codes .isModifiableClass
      = (jvm.behaviour.codes .isModifiableClass).drop named

/-- The account of an enumeration, when some classes were asked for their signature and some turned out to
have a name. -/
def enumerating (jvm : Jvm) (asked named : Nat) : Account where
  opened := jvm
  keeps := Enumerating jvm asked named
  thrifty := True
  steady w w' h hw := by
    have hclasses : w'.jvm.classes = w.jvm.classes := congrArg (fun w => w.jvm.classes) h
    have hmissing : w'.jvm.missing = w.jvm.missing := congrArg (fun w => w.jvm.missing) h
    have hcodes : w'.jvm.behaviour.codes = w.jvm.behaviour.codes :=
      congrArg (fun w => w.jvm.behaviour.codes) h
    obtain ⟨hclasses', hmissing', hdeallocates, hsignatures, hmodifiables⟩ := hw
    refine ⟨hclasses.trans hclasses', hmissing.trans hmissing', ?_, ?_, ?_⟩
    · unfold Jvm.Deallocates
      rw [hmissing, hcodes]
      exact hdeallocates
    · rw [hcodes]
      exact hsignatures
    · rw [hcodes]
      exact hmodifiables

/-- A class is as it was when the enumeration began. -/
theorem Enumerating.class_ {w : Library} (hw : Enumerating jvm asked named w) (i : Nat) :
    w.jvm.class_ i = jvm.class_ i := by
  rw [Jvm.class_, Jvm.class_, hw.classes]

/-- The account of an enumeration does not look at the codes of functions other than the first two. -/
theorem indifferent_enumerating {f : ToolFunction} (hsignature : f ≠ .getClassSignature)
    (hmodifiable : f ≠ .isModifiableClass) : (enumerating jvm asked named).Indifferent f := by
  intro w hw
  refine ⟨hw.classes, hw.missing, hw.deallocates.codeTaken f, fun h => ?_, fun h => ?_⟩
  · exact (Jvm.codes_codeTaken_of_ne _ hsignature.symm).trans (hw.signatures h)
  · exact (Jvm.codes_codeTaken_of_ne _ hmodifiable.symm).trans (hw.modifiables h)

/-- Blocks are given back during an enumeration, as deallocating does not fail. -/
theorem refunds_enumerating : (enumerating jvm asked named).Refunds where
  deallocates _ _ hw := hw.deallocates
  deallocate := indifferent_enumerating (by decide) (by decide)
  getErrorName := indifferent_enumerating (by decide) (by decide)

/-! ### Questions about one class -/

/-- The next code of a function of which `k` codes are taken is the one for its call number `k`. -/
theorem Jvm.succeeds_iff {w : Library} {f : ToolFunction} {k : Nat}
    (hthere : jvm.missing.contains f = false)
    (hcodes : w.jvm.behaviour.codes f = (jvm.behaviour.codes f).drop k) :
    jvm.succeeds f k = true ↔ (w.jvm.behaviour.codes f).headD 0 = 0 := by
  rw [hcodes, List.headD_eq_head?_getD, List.head?_drop, succeeds, hthere]
  simp

namespace ToolTable

/-- **A question that is counted:** it is the call number `k` of a function, and one more is counted once it
is asked. -/
theorem returns_call_counted {f : ToolFunction} {k : Nat} {text : Option String}
    {body : Act Library (ToolAnswer α)} {before after : Session Library → Prop}
    {post : α → Session Library → Prop}
    (hmissing : ∀ s, before s → s.world.jvm.missing = jvm.missing)
    (hcodes : ∀ s, before s → jvm.missing.contains f = false →
      s.world.jvm.behaviour.codes f = (jvm.behaviour.codes f).drop k)
    (hstays : ∀ s, before s → jvm.missing.contains f = true → after s)
    (htaken : ∀ (s : Session Library) (calls : List String), before s →
      jvm.missing.contains f = false →
      after { s with world := { s.world with jvm := { s.world.jvm.codeTaken f with calls } } })
    (hbody : Returns after body fun answer s => ∃ x, answer = .ok x ∧ post x s) :
    Returns before (call f text body) fun answer s =>
      (jvm.succeeds f k = true ∧ ∃ x, answer = .ok x ∧ post x s)
        ∨ (jvm.succeeds f k = false ∧ (∃ code, answer = .error code) ∧ after s) := by
  refine returns_call_of (fun code s => (jvm.succeeds f k = true ↔ code = 0) ∧ after s) ?_ ?_ ?_ ?_
  · intro s hs h
    rw [hmissing s hs] at h
    refine .inr ⟨?_, ⟨_, rfl⟩, hstays s hs h⟩
    rw [Jvm.succeeds, h]
    rfl
  · intro s calls hs h
    rw [hmissing s hs] at h
    exact ⟨Jvm.succeeds_iff h (hcodes s hs h), htaken s calls hs h⟩
  · intro code s hs hcode
    have hfails : jvm.succeeds f k = false :=
      eq_false_of_ne_true fun h => hcode (hs.1.1 h)
    exact .inr ⟨hfails, ⟨code, rfl⟩, hs.2⟩
  · rintro s ⟨hcode, hs⟩
    obtain ⟨answer, s', hrun, hpost⟩ := hbody s hs
    exact ⟨answer, s', hrun, .inl ⟨hcode.2 rfl, hpost⟩⟩

/-- The class of a handle is looked up at no expense. -/
theorem returns_classOf (i : Nat) :
    Returns ((enumerating jvm asked named).Balance refs blocks False) (classOf (jvm.handleAt i))
      fun c s => c = jvm.class_ i ∧ (enumerating jvm asked named).Balance refs blocks False s :=
  returns_vm_self.bind fun _ => returns_pure fun _ ⟨hs, hjvm⟩ =>
    ⟨(congrArg (fun jvm => Jvm.class_ jvm i) hjvm).trans (hs.keeps.class_ i), hs⟩

/-- The line of a call about a class is made up without a call. -/
theorem returns_classLine {before : Session Library → Prop} {f : ToolFunction} (r : JvmRef) :
    Returns before (classLine f r) fun _ => before :=
  returns_vm.bind fun _ => returns_pure fun _ hs => hs

/-- A class is asked for its signature with the next code, and a signature is a block in hand. -/
theorem returns_getClassSignature (i : Nat) :
    Returns ((enumerating jvm i named).Balance refs blocks False) (getClassSignature (jvm.handleAt i))
      fun answer s => (jvm.succeeds .getClassSignature i = true ∧ ∃ block : MemoryBlock,
          answer = .ok block ∧ block.content = (jvm.class_ i).signature
            ∧ (enumerating jvm (i + 1) named).Balance refs (block.number :: blocks) False s)
        ∨ (jvm.succeeds .getClassSignature i = false ∧ (∃ code, answer = .error code)
          ∧ (enumerating jvm (i + 1) named).Balance refs blocks False s) := by
  refine (returns_classLine _).bind fun _ => returns_call_counted ?_ ?_ ?_ ?_ ?_
  · exact fun _ hs => hs.keeps.missing
  · exact fun _ hs => hs.keeps.signatures
  · intro s hs hmissing
    have hkeeps : Enumerating jvm (i + 1) named s.world :=
      { hs.keeps with signatures := fun h => absurd (h.symm.trans hmissing) Bool.false_ne_true }
    exact ⟨hs.refs, hs.blocks, hs.badReturns, hs.calm, hkeeps⟩
  · intro s calls hs hthere
    have htail : (s.world.jvm.behaviour.codes .getClassSignature).tail
        = (jvm.behaviour.codes .getClassSignature).drop (i + 1) := by
      rw [hs.keeps.signatures hthere, List.tail_drop]
    exact ⟨hs.refs, hs.blocks, hs.badReturns, hs.calm, hs.keeps.classes, hs.keeps.missing,
      hs.keeps.deallocates.codeTaken _, fun _ => (Jvm.codes_codeTaken_self _ _).trans htail,
      fun h => (Jvm.codes_codeTaken_of_ne _ (by decide)).trans (hs.keeps.modifiables h)⟩
  · refine (returns_classOf i).bind fun c => ?_
    rintro s ⟨rfl, hs⟩
    exact ((returns_newBlock (jvm.class_ i).signature).bind fun block =>
      returns_pure fun _ hs => ⟨block, rfl, hs⟩) s hs

/-- A class is asked whether it is modifiable with the next code, and a failure counts as no. -/
theorem returns_isModifiableClass (i : Nat) :
    Returns ((enumerating jvm asked named).Balance refs blocks False)
      (isModifiableClass (jvm.handleAt i)) fun answer s =>
        answer.toOption.getD false
            = (jvm.succeeds .isModifiableClass named && (jvm.class_ i).modifiable)
          ∧ (enumerating jvm asked (named + 1)).Balance refs blocks False s := by
  have hcounted : Returns ((enumerating jvm asked named).Balance refs blocks False)
      (isModifiableClass (jvm.handleAt i)) fun answer s =>
        (jvm.succeeds .isModifiableClass named = true ∧ ∃ m, answer = .ok m
            ∧ m = (jvm.class_ i).modifiable
            ∧ (enumerating jvm asked (named + 1)).Balance refs blocks False s)
          ∨ (jvm.succeeds .isModifiableClass named = false ∧ (∃ code, answer = .error code)
            ∧ (enumerating jvm asked (named + 1)).Balance refs blocks False s) := by
    refine (returns_classLine _).bind fun _ => returns_call_counted ?_ ?_ ?_ ?_ ?_
    · exact fun _ hs => hs.keeps.missing
    · exact fun _ hs => hs.keeps.modifiables
    · intro s hs hmissing
      have hkeeps : Enumerating jvm asked (named + 1) s.world :=
        { hs.keeps with modifiables := fun h => absurd (h.symm.trans hmissing) Bool.false_ne_true }
      exact ⟨hs.refs, hs.blocks, hs.badReturns, hs.calm, hkeeps⟩
    · intro s calls hs hthere
      have htail : (s.world.jvm.behaviour.codes .isModifiableClass).tail
          = (jvm.behaviour.codes .isModifiableClass).drop (named + 1) := by
        rw [hs.keeps.modifiables hthere, List.tail_drop]
      exact ⟨hs.refs, hs.blocks, hs.badReturns, hs.calm, hs.keeps.classes, hs.keeps.missing,
        hs.keeps.deallocates.codeTaken _,
        fun h => (Jvm.codes_codeTaken_of_ne _ (by decide)).trans (hs.keeps.signatures h),
        fun _ => (Jvm.codes_codeTaken_self _ _).trans htail⟩
    · exact (returns_classOf i).bind fun c => returns_pure fun _ hs =>
        ⟨c.modifiable, rfl, congrArg JvmClass.modifiable hs.1, hs.2⟩
  refine hcounted.mono (fun _ hs => hs) fun answer s hs => ?_
  rcases hs with ⟨hsucceeds, m, rfl, rfl, hs⟩ | ⟨hfails, ⟨code, rfl⟩, hs⟩
  · rw [hsucceeds]
    exact ⟨rfl, hs⟩
  · rw [hfails]
    exact ⟨rfl, hs⟩

/-- A loader that is answered is in hand, and none is where the question fails. -/
theorem returns_getClassLoader {acc : Account} (hacc : acc.Indifferent .getClassLoader) (r : JvmRef) :
    Returns (acc.Balance refs blocks False) (getClassLoader r) fun answer =>
      acc.Balance (answer.toOption.join.toList ++ refs) blocks False := by
  have hclassOf : Returns (acc.Balance refs blocks False) (classOf r) fun _ =>
      acc.Balance refs blocks False := by
    unfold classOf
    split
    · exact returns_vm.bind fun _ => returns_pure fun _ hs => hs
    · exact returns_pure fun _ hs => hs
  refine (returns_classLine r).bind fun _ => returns_call hacc (fun _ _ hs => hs)
    (hclassOf.bind fun c => ?_)
  split
  · exact returns_pure fun _ hs => hs
  · exact (returns_newRef _).bind fun _ => returns_pure fun _ hs => hs.2

end ToolTable

/-- The signature is taken over and its block given back; what is left is the name of the class. -/
theorem ToolInterface.returns_getClassSignature (i : Nat) :
    Returns ((enumerating jvm i named).Balance refs blocks False)
      (ToolInterface.getClassSignature (jvm.handleAt i)) fun answer s =>
        answer.toOption.bind JvmHost.nameOfSignature = jvm.nameAt i
          ∧ (enumerating jvm (i + 1) named).Balance refs blocks False s := by
  refine (ToolTable.returns_getClassSignature i).bind fun answer => ?_
  rintro s (⟨hsucceeds, block, rfl, hcontent, hs⟩ | ⟨hfails, ⟨code, rfl⟩, hs⟩)
  · obtain ⟨answer, s', hrun, hanswer, hs'⟩ := returns_takeText refunds_enumerating block s hs
    refine ⟨answer, s', hrun, ?_, hs'⟩
    rw [hanswer trivial, MemoryBlock.text, hcontent, Jvm.nameAt, if_pos hsucceeds]
    rfl
  · refine ⟨_, s, rfl, ?_, hs⟩
    rw [Jvm.nameAt, hfails]
    rfl

/-! ### The references to all classes -/

/-- The references to all loaded classes are handed out in their order. -/
theorem Library.returns_mapM_newRef {acc : Account} (first count : Nat) :
    Returns (fun s => s.world.jvm.handedOut = jvm.handedOut + first ∧ acc.Balance refs blocks False s)
      ((List.range' first count).mapM fun i => withVm fun vm => vm.newRef (.loadedClass i))
      fun handles s => handles = (List.range' first count).map jvm.handleAt
        ∧ acc.Balance (handles ++ refs) blocks False s := by
  induction count generalizing first refs with
  | zero => exact returns_pure fun _ hs => ⟨rfl, hs.2⟩
  | succ count ih =>
    rw [List.range'_succ, List.mapM_cons]
    rintro s ⟨hfirst, hs⟩
    have hrun : (withVm fun vm => vm.newRef (.loadedClass first)).run s
        = (.ok ⟨s.world.jvm.handedOut + 1, .loadedClass first⟩,
          { s with world := { s.world with
            jvm := (s.world.jvm.newRef (.loadedClass first)).2 } }) := rfl
    obtain ⟨r, s₁, hrun', -, hs₁⟩ := returns_newRef (.loadedClass first) s hs
    cases hrun.symm.trans hrun'
    have hhandle : (⟨s.world.jvm.handedOut + 1, .loadedClass first⟩ : JvmRef) = jvm.handleAt first := by
      rw [hfirst, Nat.add_right_comm]
      rfl
    obtain ⟨handles, s₂, hrest, rfl, hs₂⟩ :=
      ih (first + 1) _ ⟨congrArg (· + 1) hfirst, hs₁⟩
    rw [run_bind_ok hrun, run_bind_ok hrest, hhandle]
    rw [hhandle] at hs₂
    exact ⟨_, s₂, rfl, rfl, hs₂.perm List.perm_middle⟩

/-- All that the JVM did since it was this one is to leave lines for calls. -/
def Untouched (jvm : Jvm) (s : Session Library) : Prop :=
  ∃ calls, s.world.jvm = { jvm with calls }

/-- A JVM that only left lines has everything in balance, with no question asked. -/
theorem Untouched.balance {s : Session Library} (hs : Untouched jvm s)
    (hdeallocates : jvm.Deallocates) : (enumerating jvm 0 0).Balance [] [] False s := by
  obtain ⟨calls, hjvm⟩ := hs
  have hkeeps : Enumerating jvm 0 0 s.world := by
    refine ⟨?_, ?_, ?_, fun _ => ?_, fun _ => ?_⟩ <;> rw [hjvm]
    · exact hdeallocates
    · rfl
    · rfl
  refine ⟨?_, ⟨[], ?_, fun _ => rfl⟩, ?_, fun hopened => ⟨?_, fun hpending => ?_⟩, hkeeps⟩
  · rw [hjvm]
    exact List.Perm.refl _
  · rw [hjvm]
    exact List.Perm.refl _
  · rw [hjvm]
    rfl
  · rw [hjvm]
    rfl
  · rw [hjvm] at hpending
    exact Bool.false_ne_true (hopened.symm.trans hpending)

/-- The JVM is about to hand out the references to all loaded classes. -/
structure Answering (jvm : Jvm) (s : Session Library) : Prop where
  valid : s.world.jvm.behaviour.nullClasses = false
  handedOut : s.world.jvm.handedOut = jvm.handedOut + 0
  balance : (enumerating jvm 0 0).Balance [] [] False s

/-- What the JVM answered are the references to all loaded classes, in a block of memory. -/
def AllHandles (jvm : Jvm) (found : Option (List JvmRef × MemoryBlock)) (s : Session Library) :
    Prop :=
  ∃ block, found = some ((List.range' 0 jvm.classes.size).map jvm.handleAt, block)
    ∧ (enumerating jvm 0 0).Balance
      ((List.range' 0 jvm.classes.size).map jvm.handleAt ++ []) [block.number] False s

/-- A code that is taken for the listing, or none at all, leaves the JVM about to answer. -/
theorem Untouched.answering {s s' : Session Library} (hs : Untouched jvm s)
    (hdeallocates : jvm.Deallocates) (hvalid : jvm.behaviour.nullClasses = false)
    (hs' : (∃ calls, s'.world
        = { s.world with jvm := { s.world.jvm.codeTaken .getLoadedClasses with calls } })
      ∨ s' = s) : Answering jvm s' := by
  have hbalance := hs.balance hdeallocates
  obtain ⟨calls, hjvm⟩ := hs
  rcases hs' with ⟨calls', hworld⟩ | rfl
  · refine ⟨?_, ?_, ?_⟩
    · rw [hworld, ← hvalid, hjvm]
      rfl
    · rw [hworld, hjvm]
      rfl
    · exact (hbalance.codeTaken (indifferent_enumerating (by decide) (by decide))).calls
        ⟨calls', hworld⟩
  · refine ⟨?_, ?_, hbalance⟩ <;> rw [hjvm]
    · exact hvalid
    · rfl

/-- Listing the loaded classes either fails by its first code, or answers a handle for each class and a
block. -/
theorem ToolTable.returns_getLoadedClasses (hdeallocates : jvm.Deallocates)
    (hvalid : jvm.behaviour.nullClasses = false) :
    Returns (Untouched jvm) ToolTable.getLoadedClasses fun answer s =>
      (jvm.succeeds .getLoadedClasses 0 = true ∧ ∃ found, answer = .ok found ∧ AllHandles jvm found s)
        ∨ (jvm.succeeds .getLoadedClasses 0 = false ∧ (∃ code, answer = .error code)
          ∧ Answering jvm s) := by
  refine ToolTable.returns_call_counted ?_ ?_ ?_ ?_ (returns_vm_self.bind fun now => ?_)
  · rintro s ⟨calls, hjvm⟩
    rw [hjvm]
  · rintro s ⟨calls, hjvm⟩ -
    rw [hjvm]
    rfl
  · exact fun s hs _ => hs.answering hdeallocates hvalid (.inr rfl)
  · exact fun s calls hs _ => hs.answering hdeallocates hvalid (.inl ⟨calls, rfl⟩)
  · rintro s ⟨hs, rfl⟩
    have hclasses : s.world.jvm.classes = jvm.classes := hs.balance.keeps.classes
    obtain ⟨_, s₁, hrun, rfl, hs₁⟩ :=
      returns_mapM_newRef 0 jvm.classes.size s ⟨hs.handedOut, hs.balance⟩
    obtain ⟨block, s₂, hrun', -, hs₂⟩ := returns_newBlock [] s₁ hs₁
    have hvm : vm.run s = (.ok s.world.jvm, s) := rfl
    rw [hs.valid, if_neg Bool.false_ne_true, run_bind_ok hvm, hclasses, List.range_eq_range',
      run_bind_ok hrun, run_bind_ok hrun']
    exact ⟨_, s₂, rfl, _, rfl, block, rfl, hs₂⟩

/-- The references to all loaded classes, in their order, and nothing else. -/
theorem ToolInterface.returns_getLoadedClasses (hdeallocates : jvm.Deallocates)
    (hvalid : jvm.behaviour.nullClasses = false) :
    Returns (Untouched jvm) ToolInterface.getLoadedClasses fun answer s =>
      (jvm.succeeds .getLoadedClasses 0 = true
        ∧ answer = .ok ((List.range' 0 jvm.classes.size).map jvm.handleAt)
        ∧ (enumerating jvm 0 0).Balance
          ((List.range' 0 jvm.classes.size).map jvm.handleAt ++ []) [] False s)
      ∨ (jvm.succeeds .getLoadedClasses 0 = false ∧ (∃ code, answer = .error code)
        ∧ (enumerating jvm 0 0).Balance [] [] False s) := by
  refine (ToolTable.returns_getLoadedClasses hdeallocates hvalid).bind fun answer => ?_
  rintro s (⟨hsucceeds, _, rfl, block, rfl, hs⟩ | ⟨hfails, ⟨code, rfl⟩, hs⟩)
  · obtain ⟨answer, s', hrun, hanswer, hs'⟩ :=
      ToolTable.returns_deallocate refunds_enumerating block s hs
    rw [hanswer trivial] at hrun
    exact ⟨_, s', run_bind_ok hrun, .inl ⟨hsucceeds, rfl, hs'⟩⟩
  · exact ⟨_, s, rfl, .inr ⟨hfails, ⟨code, rfl⟩, hs.balance⟩⟩

namespace JvmHost

/-! ### Listing the classes -/

/-- The loader of a class is found out, or taken for the bootstrap loader. -/
theorem returns_describeLoaderOf (r : JvmRef) (name : String) :
    Returns ((enumerating jvm asked named).Balance refs blocks False) (describeLoaderOf r name)
      fun _ => (enumerating jvm asked named).Balance refs blocks False := by
  refine (ToolTable.returns_getClassLoader
    (indifferent_enumerating (by decide) (by decide)) r).bind fun answer => ?_
  rcases answer with code | _ | loader
  · exact (ToolInterface.returns_whenKept_describeError refunds_enumerating _ code _
      fun error => [("type_name", name), ("error", error)]).bind fun _ => returns_pure fun _ hs => hs
  · exact returns_pure fun _ hs => hs
  · exact NativeInterface.returns_using_ (some loader) (LoaderAccess.returns_describe loader)

/-- **One class** is listed with what is found out of it, or else the reference to it is given back. -/
theorem returns_describeClass (i : Nat) :
    Returns ((enumerating jvm i named).Balance (jvm.handleAt i :: refs) blocks False)
      (describeClass (jvm.handleAt i)) fun found s =>
        (jvm.nameAt i = none ∧ found = none
          ∧ (enumerating jvm (i + 1) named).Balance refs blocks False s)
        ∨ ∃ name c, jvm.nameAt i = some name ∧ found = some c
          ∧ c.shown = jvm.shownAt named (i, name)
          ∧ (enumerating jvm (i + 1) (named + 1)).Balance (jvm.handleAt i :: refs) blocks False s := by
  refine (ToolInterface.returns_getClassSignature i).bind fun answer => ?_
  rintro s ⟨hname, hs⟩
  rw [hname]
  cases hnameAt : jvm.nameAt i with
  | none =>
    obtain ⟨⟨⟩, s', hrun, hs'⟩ := NativeTable.returns_deleteLocalRef (jvm.handleAt i) s hs
    exact ⟨none, s', run_bind_ok hrun, .inl ⟨rfl, rfl, hs'⟩⟩
  | some name =>
    refine ((ToolTable.returns_isModifiableClass i).bind fun modifiable => ?_ :
      Returns _ _ _) s hs
    rintro s ⟨hmodifiable, hs⟩
    refine ((returns_describeLoaderOf (jvm.handleAt i) name).bind fun loader =>
      returns_pure fun s hs => .inr ⟨name, _, rfl, rfl, ?_, hs⟩ : Returns _ _ _) s hs
    rw [LoadedClass.shown, hmodifiable]
    rfl

/-- **The classes from one number on,** of which as many are listed as have a name: the references to the
others are given back. -/
theorem returns_describeEach (first count : Nat) :
    Returns ((enumerating jvm first named).Balance
        ((List.range' first count).map jvm.handleAt ++ refs) blocks False)
      (((List.range' first count).map jvm.handleAt).filterMapM describeClass) fun classes s =>
        classes.map LoadedClass.shown
            = (jvm.listed (List.range' first count)).mapIdx (fun k => jvm.shownAt (named + k))
          ∧ ∃ asked named, (enumerating jvm asked named).Balance
            ((jvm.listed (List.range' first count)).map (fun entry => jvm.handleAt entry.1) ++ refs)
            blocks False s := by
  induction count generalizing first named refs with
  | zero => exact returns_pure fun _ hs => ⟨rfl, first, named, hs⟩
  | succ count ih =>
    rw [List.range'_succ, List.map_cons, List.filterMapM_cons]
    refine (returns_describeClass first).bind fun found => ?_
    rintro s (⟨hname, rfl, hs⟩ | ⟨name, c, hname, rfl, hshown, hs⟩)
    · have hlisted : jvm.listed (first :: List.range' (first + 1) count)
          = jvm.listed (List.range' (first + 1) count) := by
        rw [Jvm.listed, List.filterMap_cons_none (by rw [hname]; rfl), Jvm.listed]
      rw [hlisted]
      exact ih (first + 1) s hs
    · have hlisted : jvm.listed (first :: List.range' (first + 1) count)
          = (first, name) :: jvm.listed (List.range' (first + 1) count) := by
        rw [Jvm.listed, List.filterMap_cons_some (by rw [hname]; rfl), Jvm.listed]
      obtain ⟨classes, s', hrun, hclasses, asked, named', hs'⟩ :=
        ih (first + 1) s (hs.perm List.perm_middle.symm)
      refine ⟨c :: classes, s', run_bind_ok hrun, ?_, asked, named', ?_⟩
      · rw [hlisted, List.mapIdx_cons, List.map_cons, hshown, hclasses]
        simp only [Nat.add_zero, Nat.add_assoc, Nat.add_comm 1]
      · rw [hlisted]
        exact hs'.perm List.perm_middle

/-- **All loaded classes with a name are listed, and nothing is left behind.** If the JVM takes its memory
back and does not answer null in the place of classes, the host lists the classes whenever the thread is
attached and the JVM answers which ones there are. Then just the classes are listed whose signature can be
read and is one of a class, in their order, under their binary names; one that is not found out to be
modifiable is not. All memory is given back, and of the references those to the listed classes stay. -/
theorem loadedClasses_complete (s : Session Library) (hdeallocates : s.world.jvm.Deallocates)
    (hvalid : s.world.jvm.behaviour.nullClasses = false) :
    ∃ answer s', loadedClasses.run s = (.ok answer, s')
      ∧ ((∃ classes, answer = .ok classes) ↔ s.world.jvm.behaviour.getNativeInterface = 0
        ∧ s.world.jvm.behaviour.nullNativeInterface = false
        ∧ s.world.jvm.succeeds .getLoadedClasses 0 = true)
      ∧ ∀ classes, answer = .ok classes →
        ∃ entries, s.world.jvm.Enumerates entries classes s'.world.jvm := by
  generalize hjvm : s.world.jvm = jvm at hdeallocates hvalid
  have hattached : ∃ s₁, NativeInterface.isAttached.run s
      = (.ok (jvm.behaviour.getNativeInterface = 0 && !jvm.behaviour.nullNativeInterface), s₁)
        ∧ Untouched jvm s₁ := by
    rw [← hjvm]
    exact ⟨_, rfl, _, rfl⟩
  obtain ⟨s₁, hrun, hs₁⟩ := hattached
  rw [loadedClasses, run_bind_ok hrun]
  cases hthere : (decide (jvm.behaviour.getNativeInterface = 0)
      && !jvm.behaviour.nullNativeInterface) with
  | false =>
    refine ⟨_, s₁, rfl, ⟨nofun, fun ⟨hnative, hnull, _⟩ => ?_⟩, nofun⟩
    rw [hnative, hnull] at hthere
    cases hthere
  | true =>
    obtain ⟨hnative, hnull⟩ : jvm.behaviour.getNativeInterface = 0
        ∧ jvm.behaviour.nullNativeInterface = false := by simpa using hthere
    obtain ⟨answer, s₂, hrun₂, hs₂⟩ := ToolInterface.returns_getLoadedClasses hdeallocates hvalid s₁ hs₁
    rw [if_neg (by decide), run_bind_ok hrun₂]
    rcases hs₂ with ⟨hsucceeds, rfl, hs₂⟩ | ⟨hfails, ⟨code, rfl⟩, hs₂⟩
    · obtain ⟨classes, s₃, hrun₃, hshown, asked, named, hs₃⟩ := returns_describeEach 0 _ s₂ hs₂
      refine ⟨.ok classes, s₃, run_bind_ok hrun₃,
        iff_of_true ⟨classes, rfl⟩ ⟨hnative, hnull, hsucceeds⟩, ?_⟩
      rintro _ ⟨⟩
      have hmem (i : Nat) : i ∈ List.range' 0 jvm.classes.size ↔ i < jvm.classes.size := by
        rw [← List.range_eq_range', List.mem_range]
      obtain ⟨lost, hblocks, hlost⟩ := hs₃.blocks
      rw [hlost trivial] at hblocks
      have hrefs := hs₃.refs
      rw [List.append_nil] at hrefs
      simp only [Nat.zero_add] at hshown
      exact ⟨jvm.listed (List.range' 0 jvm.classes.size), jvm.pairwise_listed _,
        fun i name => by rw [Jvm.mem_listed_iff, hmem], hshown, hrefs, hblocks, hs₃.badReturns⟩
    · obtain ⟨name, s₃, hrun₃, -⟩ := ToolInterface.returns_describeError refunds_enumerating code s₂ hs₂
      refine ⟨_, s₃, run_bind_ok hrun₃, iff_of_false nofun fun h => ?_, nofun⟩
      exact Bool.false_ne_true (hfails.symm.trans h.2.2)

/-- A loaded class of this signature, of the loader of a number or of the bootstrap loader. -/
def sampleClass (signature : String) (loader : Option Nat) : JvmClass :=
  ⟨Text.Utf8.encode signature, loader, [], [], true, none⟩

/-- A library whose JVM has two classes with a name, an array, a primitive type, and a class whose signature
cannot be read. The loader of the first class is not found out, and not whether the other one can be
modified; its loader throws when it is asked for its type. -/
def sampleEnumeration : Session Library :=
  .start (Library.start
    (.start #[sampleClass "Lp/A;" none, sampleClass "[I" none, sampleClass "Lp/B;" none,
        sampleClass "I" none, sampleClass "Lp/C;" (some 0)]
      #[⟨"app", [], none, [], ["getName"], false, false, false, none⟩] [] [] []
      { JvmBehaviour.regular with
        codes := fun f => match f with
          | .getClassSignature => [0, 0, 52]
          | .isModifiableClass => [0, 21]
          | .getClassLoader => [62]
          | _ => [] }) ⟨[]⟩ ⟨[]⟩)

/-- Two of the five classes are listed, and the one of which it is not found out counts as not
modifiable. -/
theorem loadedClasses_complete_sample :
    sampleEnumeration.world.jvm.Deallocates
      ∧ sampleEnumeration.world.jvm.behaviour.nullClasses = false
      ∧ ∃ classes s' entries, loadedClasses.run sampleEnumeration = (.ok (.ok classes), s')
        ∧ classes.map LoadedClass.shown = [("p.A", 1, true), ("p.C", 5, false)]
        ∧ sampleEnumeration.world.jvm.Enumerates entries classes s'.world.jvm := by
  have hdeallocates : sampleEnumeration.world.jvm.Deallocates := ⟨rfl, nofun⟩
  obtain ⟨answer, s', hrun, -, hclasses⟩ :=
    loadedClasses_complete sampleEnumeration hdeallocates rfl
  have hshown : (loadedClasses.run sampleEnumeration).1.toOption.bind (fun answer =>
      answer.toOption.map fun classes => classes.map LoadedClass.shown)
        = some [("p.A", 1, true), ("p.C", 5, false)] := by decide +kernel
  rw [hrun] at hshown
  rcases answer with e | classes
  · cases hshown
  · obtain ⟨entries, hentries⟩ := hclasses classes rfl
    exact ⟨hdeallocates, rfl, classes, s', entries, hrun, Option.some.inj hshown, hentries⟩

end JvmHost

end AdviceWeaver
