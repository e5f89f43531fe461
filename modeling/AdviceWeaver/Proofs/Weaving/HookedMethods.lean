import AdviceWeaver.Proofs.ClassFile.Bodies
import AdviceWeaver.Proofs.Weaving.NestedAttributes
import AdviceWeaver.Proofs.Weaving.PoolExtension

/-!
# Methods with hooks

A method that receives hooks is the method it was, but for the attribute that holds its body. That
one is a code attribute again, and holds the old body rebuilt with the hooks, stack map frames
included (`Reframed`).

## Main results

* `Reader.takes_hookedCode` — a code attribute with hooks is read back.
* `Reader.takes_hookedMethod` — a method with hooks is read back.
-/

namespace AdviceWeaver

/-- The code attribute `a'` holds the body of `a` with hooks. -/
def Attribute.Hooked (hooks : HookRefs) (a a' : Attribute) : Prop :=
  ∃ (body body' : Code) (pairs : List Replacement), a.content = .code body ∧ a'.content = .code body'
    ∧ a'.name = a.name ∧ body'.maxStack = body.maxStack ∧ body'.maxLocals = body.maxLocals
    ∧ Rebuilt hooks pairs body body'

/-- The body `body'` is `body` rebuilt with hooks, and its stack map frames have moved as control
lands. -/
structure Reframed (hooks : HookRefs) (pairs : List Replacement) (body body' : Code) : Prop
    extends Rebuilt hooks pairs body body' where
  frames : List.Forall₂ (StackFrame.TableMoved (hooks.Lands pairs)) (frameTables body.attributes)
    (frameTables body'.attributes)

/-- Frames that the layout maps move as control lands. -/
theorem Layout.MapsTables.lands {hooks : HookRefs} {pairs : List Replacement}
    {tables tables' : List (List StackFrame)} (hmended : Layout.Mended hooks pairs)
    (hlength : (Layout.of (pairs.map Prod.fst) hooks).newLength ≤ 65535)
    (h : (Layout.of (pairs.map Prod.fst) hooks).MapsTables tables tables') :
    List.Forall₂ (StackFrame.TableMoved (hooks.Lands pairs)) tables tables' := by
  have heq : (Layout.of (pairs.map Prod.fst) hooks).Maps = hooks.Lands pairs :=
    funext fun old => funext fun new => propext hmended.map?_eq_some_iff
  exact heq ▸ List.Forall₂.imp (fun _ _ => Layout.mapFrames_moved hlength) h

/-! ### Code attributes -/

namespace CodeOf.Hooked

variable {classBytes : Bytes} {hooks : HookRefs} {pairs : List Replacement} {body : Code}
  {new : CodeOf Bytes}

/-- A body with hooks is as little empty as the body was. -/
theorem code_ne_nil (h : Hooked classBytes hooks pairs body new) (hne : body.code ≠ []) :
    new.code ≠ [] := by
  have hold := Body.encode_of_decode h.rebuilt.decode_old
  have hnew := Body.encode_of_decode h.rebuilt.decode_new
  cases pairs with
  | nil => exact absurd hold.symm hne
  | cons pair rest =>
    intro hnil
    rw [hnil] at hnew
    have hlength := congrArg List.length hnew
    have hpos := pair.2.length_pos
    simp only [Body.length_encode, HookRefs.weave, List.map_cons, List.flatMap_cons,
      Body.length_append, HookRefs.length_around, List.length_nil] at hlength
    omega

/-- The front of a body with hooks is not long. -/
theorem length_front_le (h : Hooked classBytes hooks pairs body new)
    (hhandlers : body.handlers.length < 65536) : new.front.length ≤ 600000 := by
  have hlength := h.length
  rw [h.rebuilt.handlers.length_eq] at hhandlers
  rw [CodeOf.length_front]
  omega

end CodeOf.Hooked

namespace Reader

variable {pool pool' : ConstantPool} {bytes : Bytes} {refs : HookRefs} {depth n : Nat}
  {offset : Nat} {octets content : Bytes} {a : Attribute} {body : Code}

/-- **A code attribute with hooks** is longer by `2 ^ 28` octets at most: no body has more octets than
16 bits count, and each of its attributes, which 16 bits count too, has its frames moved. It is read
back, wherever it stands, if 32 bits can tell its length. -/
theorem takes_hookedCode
    (hpool : ∀ {index text}, pool.getText index = .ok text → pool'.getText index = .ok text)
    (h : (attributeEntry pool (attributes pool depth)).Takes offset octets a)
    (hat : bytes.HasAt offset octets) (hbody : a.content = .code body)
    (hcontent : body.insertHooks bytes refs = .ok content) :
    (encodeAttribute a.name content).length ≤ octets.length + 268435456
      ∧ (content.length < 4294967296 → (encodeAttribute a.name content).length ≤ n + 2 →
        ∀ offset', ∃ a', (attributeEntry pool' (attributes pool' (n + 1))).Takes offset'
            (encodeAttribute a.name content) a' ∧ a.Hooked refs a'
          ∧ ∃ body' pairs, a'.content = .code body' ∧ Reframed refs pairs body body') := by
  obtain ⟨front, rest, rfl, htext, hcode⟩ := code_of_takes (definite_attributes pool depth) h hbody
  obtain ⟨each, rfl, hne, -, hhandlers, hnested⟩ :=
    (takes_code_iff (definite_attributes pool depth)).1 hcode
  obtain ⟨pairs, new, rfl, hnew⟩ := CodeOf.hooked_of_insertHooks hcontent
  cases depth with
  | zero => exact (takes_throw_iff.1 hnested).elim
  | succ depth =>
    obtain ⟨hcount, each, rfl, heach⟩ := (takes_counted_iff (definite_attributeEntry pool _)).1 hnested
    have hfront := hnew.length_front_le hhandlers
    have heachAt : bytes.HasAt (offset + 6 + body.front.length + 2) each :=
      hat.right.left.right.right
    obtain ⟨hgrowth, hfewer, htakes⟩ := Layout.takes_mapAttributes hnew.newLength
      (definite_attributes pool depth) hpool (carries_attributes hpool depth n) heach heachAt
      hnew.attributes
    have hlength : new.encode.length = new.front.length + 2 + (new.attributes.flatMap id).length := by
      simp only [CodeOf.encode, encodeTable, List.length_append, Bytes.length_ofUInt16]
      omega
    have hextent : (encodeAttribute a.name new.encode).length = new.encode.length + 6 := by
      simp only [encodeAttribute, List.length_append, Bytes.length_ofUInt16, Bytes.length_ofUInt32]
      omega
    refine ⟨?_, fun hsmall hn offset' => ?_⟩
    · simp only [encodeAttribute, List.length_append, Bytes.length_ofUInt16,
        Bytes.length_ofUInt32]
      omega
    obtain ⟨list', hlist', hcount', htables⟩ :=
      htakes (by omega) (by omega) (offset' + 6 + new.front.length + 2)
    have hread : (attributes pool' (n + 1)).Takes (offset' + 6 + new.front.length)
        (encodeTable id new.attributes) list' := by
      refine (takes_counted_iff (definite_attributeEntry pool' _)).2 ⟨by omega, _, ?_, hlist'⟩
      rw [hcount']
      rfl
    have hread' := takes_code (hnew.code_ne_nil hne) hnew.length
      (hnew.rebuilt.handlers.length_eq ▸ hhandlers) hread
    have hrebuilt : Rebuilt refs pairs body { new with attributes := list' } := by
      obtain ⟨hold, hdecode, hskeleton, hdistances, hhandlers'⟩ := hnew.rebuilt
      exact ⟨hold, hdecode, hskeleton, hdistances, hhandlers'⟩
    exact ⟨_, takes_encodeAttribute hsmall (hpool htext) (List.append_nil _).symm
      (hread'.map ContentOf.code), ⟨body, { new with attributes := list' }, pairs, hbody, rfl, rfl,
      hnew.maxStack, hnew.maxLocals, hrebuilt⟩, { new with attributes := list' }, pairs, rfl,
      hrebuilt, htables.lands hnew.mended hnew.newLength⟩

end Reader

/-- An attribute that was read is no longer than the class file. -/
theorem Attribute.ReadFrom.extent_le {bytes : Bytes} {pool : ConstantPool} {a : Attribute}
    (h : a.ReadFrom bytes pool) : a.extent ≤ bytes.length := by
  obtain ⟨depth, offset, octets, ⟨before, after, rfl, -⟩, htakes⟩ := h
  rw [Reader.extent_of_takes htakes, List.length_append, List.length_append]
  omega

/-- **Room for hooks.** Hooks make a code attribute that was read longer by `2 ^ 28` octets at most. -/
theorem Attribute.ReadFrom.length_hooked_le {bytes content : Bytes} {pool : ConstantPool}
    {a : Attribute} {body : Code} {refs : HookRefs} (h : a.ReadFrom bytes pool)
    (hbody : a.content = .code body) (hcontent : body.insertHooks bytes refs = .ok content) :
    (encodeAttribute a.name content).length ≤ a.extent + 268435456 := by
  obtain ⟨depth, offset, octets, hat, htakes⟩ := h
  rw [Reader.extent_of_takes htakes]
  exact (Reader.takes_hookedCode (n := 0) (fun h => h) htakes hat hbody hcontent).1

/-! ### Methods -/

/-- The attribute that holds the body of the method, if it has one, takes no more than `limit`
octets. -/
def MethodInfo.Within (limit : Nat) (m : MethodInfo) : Prop :=
  ∀ a body, m.code? = some (a, body) → a.extent ≤ limit

/-- Methods that say the same, read from different places. -/
structure MethodInfo.Same (m m' : MethodInfo) : Prop where
  access : m'.access = m.access
  name : m'.name = m.name
  descriptor : m'.descriptor = m.descriptor
  attributes : List.Forall₂ Attribute.Same m.attributes m'.attributes

/-- The method `m'` is `m` with hooks in its body: the first attribute of `m` that holds a body was
replaced. -/
structure MethodInfo.Hooked (hooks : HookRefs) (m m' : MethodInfo) : Prop where
  access : m'.access = m.access
  name : m'.name = m.name
  descriptor : m'.descriptor = m.descriptor
  attributes : ∃ before a after before' a' after', m.attributes = before ++ a :: after
    ∧ m'.attributes = before' ++ a' :: after' ∧ (∀ b ∈ before, ∀ body, b.content ≠ .code body)
    ∧ List.Forall₂ Attribute.Same before before' ∧ a.Hooked hooks a'
    ∧ List.Forall₂ Attribute.Same after after'

/-- The body of a method is in the first attribute that holds one. -/
theorem MethodInfo.code?_eq_some_iff {m : MethodInfo} {a : Attribute} {body : Code} :
    m.code? = some (a, body)
      ↔ ∃ before after, m.attributes = before ++ a :: after ∧ a.content = .code body
          ∧ ∀ b ∈ before, ∀ body, b.content ≠ .code body := by
  rw [MethodInfo.code?, List.findSome?_eq_some_iff]
  constructor
  · rintro ⟨before, b, after, hsplit, hb, hbefore⟩
    split at hb
    · next body' hbody =>
      obtain ⟨rfl, rfl⟩ := Prod.mk.inj (Option.some.inj hb)
      refine ⟨before, after, hsplit, hbody, fun c hc body' hbody' => ?_⟩
      have hnone := hbefore c hc
      rw [hbody'] at hnone
      cases hnone
    · cases hb
  · rintro ⟨before, after, hsplit, hbody, hbefore⟩
    refine ⟨before, a, after, hsplit, by rw [hbody], fun b hb => ?_⟩
    split
    · next body' hbody' => exact absurd hbody' (hbefore b hb body')
    · rfl

/-- The code attribute of a method has its body as content. -/
theorem MethodInfo.content_of_code? {m : MethodInfo} {a : Attribute} {body : Code}
    (h : m.code? = some (a, body)) : a.content = .code body := by
  obtain ⟨-, -, -, hbody, -⟩ := code?_eq_some_iff.1 h
  exact hbody

/-- Of two attributes that say the same both are code or neither is. -/
theorem Attribute.Same.not_code_iff {a a' : Attribute} (h : a.Same a') :
    (∀ body, a'.content ≠ .code body) ↔ ∀ body, a.content ≠ .code body := by
  cases h with
  | @code _ _ _ body body' => exact iff_of_false (fun hne => hne body' rfl) fun hne => hne body rfl
  | other => rfl

namespace Reader

variable {pool pool' : ConstantPool} {bytes : Bytes} {refs : HookRefs} {depth n : Nat}
  {offset : Nat} {octets content : Bytes} {m : MethodInfo} {a : Attribute} {body : Code}

/-- A method is read again, wherever it stands. -/
theorem takes_sameMethod
    (hpool : ∀ {index text}, pool.getText index = .ok text → pool'.getText index = .ok text)
    (h : (method pool depth).Takes offset octets m) (hn : octets.length ≤ n) (offset' : Nat) :
    ∃ m', (method pool' n).Takes offset' octets m' ∧ m.Same m' := by
  obtain ⟨each, rfl, heach⟩ := takes_method_iff.1 h
  rw [List.length_append] at hn
  obtain ⟨list', hlist', hmoved⟩ := carries_attributes hpool depth n _ (offset' + 6) each _
    (by omega) heach
  exact ⟨⟨m.access, m.name, m.descriptor, list'⟩, takes_method_iff.2 ⟨each, rfl, hlist'⟩,
    ⟨rfl, rfl, rfl, Attribute.forall₂_same hmoved⟩⟩

/-- **A method with hooks** is what it was but for one attribute, and is read back, wherever it
stands, if 32 bits can tell the length of that attribute. -/
theorem takes_hookedMethod
    (hpool : ∀ {index text}, pool.getText index = .ok text → pool'.getText index = .ok text)
    (h : (method pool depth).Takes offset octets m) (hat : bytes.HasAt offset octets)
    (hcode : m.code? = some (a, body)) (hcontent : body.insertHooks bytes refs = .ok content) :
    ∃ octets', Spliced offset octets octets' [⟨a.span, encodeAttribute a.name content⟩]
      ∧ (content.length < 4294967296 → ∀ n offset', octets'.length ≤ n →
        ∃ m', (method pool' n).Takes offset' octets' m' ∧ m.Hooked refs m'
          ∧ ∃ a' body' pairs, m'.code? = some (a', body') ∧ Reframed refs pairs body body') := by
  obtain ⟨before, after, hsplit, hbody, hbefore⟩ := MethodInfo.code?_eq_some_iff.1 hcode
  obtain ⟨each, rfl, heach⟩ := takes_method_iff.1 h
  cases depth with
  | zero => exact (takes_throw_iff.1 heach).elim
  | succ depth =>
    obtain ⟨hcount, each, rfl, hlist⟩ := (takes_counted_iff (definite_attributeEntry pool _)).1 heach
    rw [hsplit, takesEach_append_iff] at hlist
    obtain ⟨front, _, rfl, hfront, old, back, rfl, hold, hback⟩ := hlist
    obtain ⟨-, -, -, -, -, -, hspan, -⟩ := takes_attributeEntry_iff.1 hold
    have holdAt : bytes.HasAt _ old := hat.right.right.right.left
    have hcounted (list' : List Attribute) (hlength : list'.length = m.attributes.length) {k : Nat}
        {offset' : Nat} {each : Bytes}
        (heach : (attributeEntry pool' (attributes pool' k)).TakesEach (offset' + 2) each list') :
        (attributes pool' (k + 1)).Takes offset'
          (Bytes.ofUInt16 (UInt16.ofNat m.attributes.length) ++ each) list' :=
      (takes_counted_iff (definite_attributeEntry pool' _)).2
        ⟨hlength ▸ hcount, each, hlength ▸ rfl, heach⟩
    -- The attributes around the code are copied; only its own octets are replaced.
    refine ⟨m.front ++ (Bytes.ofUInt16 (UInt16.ofNat m.attributes.length)
      ++ (front ++ (encodeAttribute a.name content ++ back))), ?_, ?_⟩
    · refine .prepend _ (.prepend _ ?_)
      rw [← List.append_assoc front, ← List.append_assoc front]
      exact .replaced (s := ⟨a.span, encodeAttribute a.name content⟩) hspan (.copied _ back)
    · intro hsmall n offset' hn
      simp only [List.length_append, MethodInfo.length_front, Bytes.length_ofUInt16] at hn
      -- A method is longer than two octets, so there is depth for its attributes and those of its code.
      obtain ⟨n, rfl⟩ : ∃ k, n = k + 2 := ⟨n - 2, by omega⟩
      have hcarries {offset offset' : Nat} {octets : Bytes} {b : Attribute}
          (hlength : octets.length ≤ n + 1)
          (hb : (attributeEntry pool (attributes pool depth)).Takes offset octets b) :
          ∃ b', (attributeEntry pool' (attributes pool' (n + 1))).Takes offset' octets b'
            ∧ b.Moved b' :=
        (carries_attributes hpool depth (n + 1)).attributeEntry (definite_attributes pool depth)
          hpool hlength hb
      obtain ⟨before', hbefore', hmoved⟩ := exists_takesEach (fun _ _ _ _ => hcarries)
        (by omega) hfront
      obtain ⟨after', hafter', hmoved'⟩ := exists_takesEach (fun _ _ _ _ => hcarries)
        (by omega) hback
      have hsame := Attribute.forall₂_same hmoved
      have hsame' := Attribute.forall₂_same hmoved'
      obtain ⟨-, hread⟩ := takes_hookedCode (n := n) hpool hold holdAt hbody hcontent
      obtain ⟨a', ha', hhooked, body', pairs, hbody', hreframed⟩ :=
        hread hsmall (by omega) (offset' + 6 + 2 + front.length)
      have heach' : (attributeEntry pool' (attributes pool' (n + 1))).TakesEach (offset' + 6 + 2)
          (front ++ (encodeAttribute a.name content ++ back)) (before' ++ a' :: after') :=
        takesEach_append_iff.2 ⟨front, _, rfl, hbefore', encodeAttribute a.name content, back, rfl,
          ha', hafter'⟩
      have hcode' : MethodInfo.code? ⟨m.access, m.name, m.descriptor, before' ++ a' :: after'⟩
          = some (a', body') := by
        refine MethodInfo.code?_eq_some_iff.2 ⟨before', after', rfl, hbody', fun b' hb' => ?_⟩
        obtain ⟨b, hb, hbb'⟩ := exists_of_forall₂_right hsame hb'
        exact hbb'.not_code_iff.2 (hbefore b hb)
      refine ⟨⟨m.access, m.name, m.descriptor, before' ++ a' :: after'⟩, takes_method_iff.2
        ⟨_, rfl, hcounted _ ?_ heach'⟩, ⟨rfl, rfl, rfl, before, a, after, before', a', after', hsplit,
        rfl, hbefore, hsame, hhooked, hsame'⟩, a', body', pairs, hcode', hreframed⟩
      rw [hsplit, List.length_append, List.length_append, hsame.length_eq, List.length_cons,
        List.length_cons, hsame'.length_eq]

end Reader

end AdviceWeaver
