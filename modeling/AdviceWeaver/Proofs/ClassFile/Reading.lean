import AdviceWeaver.ClassFile.Cursor
import AdviceWeaver.ClassFile.Encode
import AdviceWeaver.Proofs.Sequencing

/-!
# What readers take

A reader takes some octets from the front of what is left, and what it gives depends on these and on
the offset only, not on what follows (`Reader.Takes`). All readers of class files are of this kind
(`Reader.Definite`): the property is closed under putting readers in sequence, so that a class file
that was read splits into the octets of its parts.

Most of them do not look at the offset either (`Reader.Plain`).

## Main results

* `Reader.Definite.bind`, `Reader.Definite.counted` — readers put together from definite ones are
  definite.
* `Reader.Definite.takes_bind_iff`, `Reader.takes_counted_iff` — what such a reader takes splits
  into what its parts take.
* `Reader.takes_encodeTable` — a written table is read back.
-/

namespace AdviceWeaver.Reader

variable {α β : Type} {R : Reader α} {offset : Nat} {octets more : Bytes} {a : α} {b : β}

/-! ### Running readers -/

theorem map_eq_bind (f : α → β) (R : Reader α) : f <$> R = R >>= fun a => pure (f a) := rfl

/-- From `offset` on, the reader takes `octets` and gives `a`, whatever follows. -/
def Takes (R : Reader α) (offset : Nat) (octets : Bytes) (a : α) : Prop :=
  ∀ rest, R ⟨offset, octets ++ rest⟩ = .ok (a, ⟨offset + octets.length, rest⟩)

theorem takes_pure (a : α) (offset : Nat) : Takes (pure a) offset [] a :=
  fun _ => rfl

/-- Two readers in a row take what both take. -/
theorem Takes.bind {f : α → Reader β} (h : R.Takes offset octets a)
    (hf : (f a).Takes (offset + octets.length) more b) :
    (R >>= f).Takes offset (octets ++ more) b := by
  intro rest
  rw [bind_eq_ok_iff, List.append_assoc, List.length_append, ← Nat.add_assoc]
  exact ⟨a, _, h _, hf rest⟩

/-- A reader whose answer goes through a function takes the same octets. -/
theorem Takes.map (f : α → β) (h : R.Takes offset octets a) :
    (f <$> R).Takes offset octets (f a) := by
  rw [map_eq_bind, ← octets.append_nil]
  exact h.bind (takes_pure _ _)

theorem takes_u1 (n : UInt8) (offset : Nat) : Takes u1 offset [n] n :=
  fun _ => rfl

/-- A two-byte number is read from its big-endian octets. -/
theorem takes_u2 (n : UInt16) (offset : Nat) : Takes u2 offset (Bytes.ofUInt16 n) n := by
  intro rest
  simp only [u2, Bytes.ofUInt16, List.cons_append, List.nil_append, Bytes.toUInt16_ofUInt16]
  rfl

/-- A four-byte number is read from its big-endian octets. -/
theorem takes_u4 (n : UInt32) (offset : Nat) : Takes u4 offset (Bytes.ofUInt32 n) n := by
  intro rest
  simp only [u4, Bytes.ofUInt32, List.cons_append, List.nil_append, Bytes.toUInt32_ofUInt32]
  rfl

/-- A run of octets of a known length is read as it stands. -/
theorem takes_bytes (octets : Bytes) (offset : Nat) :
    Takes (bytes octets.length) offset octets octets := by
  intro rest
  have hsplit := Bytes.split?_eq_some_iff.2 ⟨(rfl : octets ++ rest = _), rfl⟩
  simp only [bytes, hsplit]

theorem takes_offset (n : Nat) : Takes Reader.offset n [] n :=
  fun _ => rfl

/-! ### Definite readers -/

/-- Whenever the reader succeeds, it takes octets from the front and looks at nothing else. -/
def Definite (R : Reader α) : Prop :=
  ∀ c a c', R c = .ok (a, c') →
    ∃ octets, c.rest = octets ++ c'.rest ∧ c'.offset = c.offset + octets.length
      ∧ R.Takes c.offset octets a

/-- A reader that only answers a value is definite. -/
theorem definite_pure (a : α) : Definite (pure a : Reader α) := by
  intro c a' c' h
  obtain ⟨rfl, rfl⟩ := pure_eq_ok_iff.1 h
  exact ⟨[], rfl, rfl, takes_pure _ _⟩

/-- A reader that only fails is definite, as it never takes anything. -/
theorem definite_throw (e : FormatError) : Definite (throw e : Reader α) := by
  intro c a c' h
  cases h

/-- **Readers in sequence** are definite if each of them is. -/
theorem Definite.bind {f : α → Reader β} (h : R.Definite) (hf : ∀ a, (f a).Definite) :
    (R >>= f).Definite := by
  intro c b c'' hread
  obtain ⟨a, c', ha, hb⟩ := bind_eq_ok_iff.1 hread
  obtain ⟨octets, hrest, hoffset, htakes⟩ := h c a c' ha
  obtain ⟨more, hrest', hoffset', htakes'⟩ := hf a c' b c'' hb
  refine ⟨octets ++ more, ?_, ?_, htakes.bind (hoffset ▸ htakes')⟩
  · rw [hrest, hrest', List.append_assoc]
  · rw [hoffset', hoffset, List.length_append, Nat.add_assoc]

theorem Definite.map (f : α → β) (h : R.Definite) : (f <$> R).Definite :=
  h.bind fun _ => definite_pure _

/-- A definite reader takes what it succeeds on, if nothing is left. -/
theorem Definite.takes_of_eq_ok (h : R.Definite) {offset' : Nat}
    (hread : R ⟨offset, octets⟩ = .ok (a, ⟨offset', []⟩)) : R.Takes offset octets a := by
  obtain ⟨taken, hrest, -, htakes⟩ := h _ _ _ hread
  obtain rfl : octets = taken := by simpa using hrest
  exact htakes

/-- **What a sequence takes** splits into what each of the readers takes. -/
theorem Definite.takes_bind_iff {f : α → Reader β} (h : R.Definite) :
    (R >>= f).Takes offset octets b
      ↔ ∃ a front back, octets = front ++ back ∧ R.Takes offset front a
          ∧ (f a).Takes (offset + front.length) back b := by
  constructor
  · intro htakes
    obtain ⟨a, c', ha, -⟩ := bind_eq_ok_iff.1 (htakes [])
    obtain ⟨front, hrest, -, hfront⟩ := h _ _ _ ha
    obtain rfl : octets = front ++ c'.rest := by simpa using hrest
    refine ⟨a, front, c'.rest, rfl, hfront, fun rest => ?_⟩
    have hread := htakes rest
    rw [bind_eq_ok_iff, List.append_assoc, hfront, List.length_append, ← Nat.add_assoc] at hread
    obtain ⟨a', c'', heq, hb⟩ := hread
    cases heq
    exact hb
  · rintro ⟨a, front, back, rfl, hfront, hback⟩
    exact hfront.bind hback

/-- A reader that chooses between two definite readers is definite. -/
theorem Definite.ite {p : Prop} [Decidable p] {S : Reader α} (hR : R.Definite)
    (hS : S.Definite) : (if p then R else S).Definite := by
  split
  · exact hR
  · exact hS

/-- A computation that touches no octets is definite as a reader. -/
theorem definite_lift (x : Except FormatError α) : Definite (liftM x : Reader α) := by
  cases x with
  | error e => exact definite_throw e
  | ok a => exact definite_pure a

/-- The reader of one byte takes the first octet, whatever follows. -/
theorem definite_u1 : Definite u1 := by
  rintro ⟨offset, rest⟩ a c' h
  cases rest with
  | nil => cases h
  | cons b rest =>
    cases h
    exact ⟨[a], rfl, rfl, takes_u1 a offset⟩

/-- The reader of a two-byte number takes two octets, whatever follows. -/
theorem definite_u2 : Definite u2 := by
  rintro ⟨offset, rest⟩ n c' h
  simp only [u2] at h
  split at h
  · next a b rest =>
    cases h
    refine ⟨[a, b], rfl, rfl, ?_⟩
    rw [← Bytes.ofUInt16_toUInt16]
    exact takes_u2 _ offset
  · cases h

/-- The reader of a four-byte number takes four octets, whatever follows. -/
theorem definite_u4 : Definite u4 := by
  rintro ⟨offset, rest⟩ n c' h
  simp only [u4] at h
  split at h
  · next a b c d rest =>
    cases h
    refine ⟨[a, b, c, d], rfl, rfl, ?_⟩
    rw [← Bytes.ofUInt32_toUInt32]
    exact takes_u4 _ offset
  · cases h

/-- The reader of a run of octets takes just as many as it is asked for. -/
theorem definite_bytes (n : Nat) : Definite (bytes n) := by
  rintro ⟨offset, rest⟩ octets c' h
  simp only [bytes] at h
  split at h
  · next hsplit =>
    cases h
    obtain ⟨hrest, rfl⟩ := Bytes.split?_eq_some_iff.1 hsplit
    exact ⟨octets, hrest, rfl, takes_bytes octets offset⟩
  · cases h

/-- The reader of the offset takes nothing, whatever follows. -/
theorem definite_offset : Definite Reader.offset := by
  intro c n c' h
  cases h
  exact ⟨[], rfl, rfl, takes_offset _⟩

/-- Content that was set apart is read without taking anything more. -/
theorem within_eq_ok_iff {start : Nat} {content : Bytes} {c c' : Cursor} :
    within start content R c = .ok (a, c')
      ↔ (∃ inside, R ⟨start, content⟩ = .ok (a, inside)) ∧ c = c' := by
  simp only [within]
  split
  · next a' inside hread =>
    rw [Except.ok.injEq, Prod.mk.injEq, hread]
    simp
  · next hread => simp [hread]

/-- A reader of content that was set apart takes nothing from the cursor itself. -/
theorem definite_within (start : Nat) (content : Bytes) (R : Reader α) :
    Definite (within start content R) := by
  intro c a c' h
  obtain ⟨⟨inside, hread⟩, rfl⟩ := within_eq_ok_iff.1 h
  exact ⟨[], rfl, rfl, fun rest => within_eq_ok_iff.2 ⟨⟨inside, hread⟩, rfl⟩⟩

/-! ### What single readers take -/

/-- What is taken through a function is what the reader took, with the function applied to the answer.
-/
theorem Definite.takes_map_iff (h : R.Definite) {f : α → β} :
    (f <$> R).Takes offset octets b ↔ ∃ a, R.Takes offset octets a ∧ f a = b := by
  constructor
  · intro htakes
    rw [map_eq_bind, h.takes_bind_iff] at htakes
    obtain ⟨a, front, back, rfl, hfront, hback⟩ := htakes
    obtain ⟨rfl, hab⟩ := pure_eq_ok_iff.1 (hback [])
    simp only [List.append_nil, Cursor.mk.injEq] at hab
    rw [hab.2, List.append_nil]
    exact ⟨a, hfront, rfl⟩
  · rintro ⟨a, ha, rfl⟩
    exact ha.map f

/-- A reader that only answers takes the empty run and gives its own value. -/
@[simp] theorem takes_pure_iff {a' : α} :
    (pure a : Reader α).Takes offset octets a' ↔ octets = [] ∧ a = a' := by
  constructor
  · intro h
    obtain ⟨rfl, hc⟩ := pure_eq_ok_iff.1 (h [])
    simp only [Cursor.mk.injEq, List.append_nil] at hc
    exact ⟨hc.2, rfl⟩
  · rintro ⟨rfl, rfl⟩
    exact takes_pure a offset

/-- A reader that only fails takes no run at all. -/
@[simp] theorem takes_throw_iff {e : FormatError} :
    (throw e : Reader α).Takes offset octets a ↔ False := by
  constructor
  · intro h
    cases h []
  · exact False.elim

/-- A computation among readers takes the empty run, and only when it succeeds. -/
@[simp] theorem takes_lift_iff {x : Except FormatError α} :
    (liftM x : Reader α).Takes offset octets a ↔ octets = [] ∧ x = .ok a := by
  cases x with
  | error e =>
    constructor
    · intro h
      cases h []
    · rintro ⟨-, h⟩
      cases h
  | ok a' =>
    rw [Except.ok.injEq]
    exact takes_pure_iff

/-- The octets taken for a byte are that byte. -/
@[simp] theorem takes_u1_iff {n : UInt8} : u1.Takes offset octets n ↔ octets = [n] := by
  constructor
  · intro h
    have hread := h []
    simp only [u1] at hread
    split at hread
    · next hrest =>
      simp only [Except.ok.injEq, Prod.mk.injEq, Cursor.mk.injEq] at hread
      obtain ⟨rfl, -, rfl⟩ := hread
      rwa [List.append_nil] at hrest
    · cases hread
  · rintro rfl
    exact takes_u1 n offset

/-- The octets taken for a two-byte number are the two of its big-endian form. -/
@[simp] theorem takes_u2_iff {n : UInt16} :
    u2.Takes offset octets n ↔ octets = Bytes.ofUInt16 n := by
  constructor
  · intro h
    have hread := h []
    simp only [u2] at hread
    split at hread
    · next hrest =>
      simp only [Except.ok.injEq, Prod.mk.injEq, Cursor.mk.injEq] at hread
      obtain ⟨rfl, -, rfl⟩ := hread
      rwa [Bytes.ofUInt16_toUInt16, ← List.append_nil octets]
    · cases hread
  · rintro rfl
    exact takes_u2 n offset

/-- The octets taken for a four-byte number are the four of its big-endian form. -/
@[simp] theorem takes_u4_iff {n : UInt32} :
    u4.Takes offset octets n ↔ octets = Bytes.ofUInt32 n := by
  constructor
  · intro h
    have hread := h []
    simp only [u4] at hread
    split at hread
    · next hrest =>
      simp only [Except.ok.injEq, Prod.mk.injEq, Cursor.mk.injEq] at hread
      obtain ⟨rfl, -, rfl⟩ := hread
      rwa [Bytes.ofUInt32_toUInt32, ← List.append_nil octets]
    · cases hread
  · rintro rfl
    exact takes_u4 n offset

/-- The octets taken for a run are the run, of the length asked for. -/
@[simp] theorem takes_bytes_iff {n : Nat} {taken : Bytes} :
    (bytes n).Takes offset octets taken ↔ octets = taken ∧ taken.length = n := by
  constructor
  · intro h
    have hread := h []
    simp only [bytes] at hread
    split at hread
    · next hsplit =>
      obtain ⟨hrest, hlength⟩ := Bytes.split?_eq_some_iff.1 hsplit
      simp only [Except.ok.injEq, Prod.mk.injEq, Cursor.mk.injEq] at hread
      obtain ⟨rfl, -, rfl⟩ := hread
      simp only [List.append_nil] at hrest
      exact ⟨hrest, hlength⟩
    · cases hread
  · rintro ⟨rfl, rfl⟩
    exact takes_bytes octets offset

/-- The offset read is where the taking begins. -/
@[simp] theorem takes_offset_iff {n : Nat} :
    Reader.offset.Takes offset octets n ↔ octets = [] ∧ offset = n := by
  constructor
  · intro h
    have hread := h []
    simp only [Reader.offset, Except.ok.injEq, Prod.mk.injEq, Cursor.mk.injEq,
      List.append_nil] at hread
    exact ⟨hread.2.2, hread.1⟩
  · rintro ⟨rfl, rfl⟩
    exact takes_offset offset

/-- Content that was set apart is read on its own, from the offset where it began. -/
@[simp] theorem takes_within_iff {start : Nat} {content : Bytes} :
    (within start content R).Takes offset octets a
      ↔ octets = [] ∧ ∃ inside, R ⟨start, content⟩ = .ok (a, inside) := by
  constructor
  · intro h
    obtain ⟨hread, hc⟩ := within_eq_ok_iff.1 (h [])
    simp only [Cursor.mk.injEq, List.append_nil] at hc
    exact ⟨hc.2, hread⟩
  · rintro ⟨rfl, hread⟩ rest
    exact within_eq_ok_iff.2 ⟨hread, rfl⟩

/-- A sequence that begins with a byte has that byte in front of what the rest takes. -/
theorem takes_u1_bind_iff {f : UInt8 → Reader β} :
    (u1 >>= f).Takes offset octets b
      ↔ ∃ n back, octets = n :: back ∧ (f n).Takes (offset + 1) back b := by
  simp only [definite_u1.takes_bind_iff, takes_u1_iff]
  constructor
  · rintro ⟨n, _, back, rfl, rfl, h⟩
    exact ⟨n, back, rfl, h⟩
  · rintro ⟨n, back, rfl, h⟩
    exact ⟨n, [n], back, rfl, rfl, h⟩

/-- A sequence that begins with a two-byte number has its octets in front of what the rest takes. -/
theorem takes_u2_bind_iff {f : UInt16 → Reader β} :
    (u2 >>= f).Takes offset octets b
      ↔ ∃ n back, octets = Bytes.ofUInt16 n ++ back ∧ (f n).Takes (offset + 2) back b := by
  simp only [definite_u2.takes_bind_iff, takes_u2_iff]
  constructor
  · rintro ⟨n, _, back, rfl, rfl, h⟩
    exact ⟨n, back, rfl, h⟩
  · rintro ⟨n, back, rfl, h⟩
    exact ⟨n, _, back, rfl, rfl, h⟩

/-- A sequence that begins with a four-byte number has its octets in front of what the rest takes. -/
theorem takes_u4_bind_iff {f : UInt32 → Reader β} :
    (u4 >>= f).Takes offset octets b
      ↔ ∃ n back, octets = Bytes.ofUInt32 n ++ back ∧ (f n).Takes (offset + 4) back b := by
  simp only [definite_u4.takes_bind_iff, takes_u4_iff]
  constructor
  · rintro ⟨n, _, back, rfl, rfl, h⟩
    exact ⟨n, back, rfl, h⟩
  · rintro ⟨n, back, rfl, h⟩
    exact ⟨n, _, back, rfl, rfl, h⟩

/-- What a number was read from. -/
theorem u2_eq_ok {n : UInt16} {c c' : Cursor} (h : u2 c = .ok (n, c')) :
    c.rest = Bytes.ofUInt16 n ++ c'.rest ∧ c'.offset = c.offset + 2 := by
  obtain ⟨octets, hrest, hoffset, htakes⟩ := definite_u2 _ _ _ h
  obtain rfl := takes_u2_iff.1 htakes
  exact ⟨hrest, hoffset⟩

/-- A four-byte number that was read is gone from the front of what is left. -/
theorem u4_eq_ok {n : UInt32} {c c' : Cursor} (h : u4 c = .ok (n, c')) :
    c.rest = Bytes.ofUInt32 n ++ c'.rest ∧ c'.offset = c.offset + 4 := by
  obtain ⟨octets, hrest, hoffset, htakes⟩ := definite_u4 _ _ _ h
  obtain rfl := takes_u4_iff.1 htakes
  exact ⟨hrest, hoffset⟩

/-! ### Items in a row -/

/-- The loop that collects in reverse is the plain repetition with what was collected in front. -/
theorem timesOnto_eq (R : Reader α) (n : Nat) (done : List α) :
    timesOnto R n done = (done.reverse ++ ·) <$> times n R := by
  have hmap (f : List α → List α) (S : Reader (List α)) (c : Cursor) :
      (f <$> S) c = (S c).map fun p => (f p.1, p.2) := by
    show (S c >>= fun p => pure (f p.1, p.2)) = _
    cases S c <;> rfl
  induction n generalizing done with
  | zero =>
    funext c
    simp [hmap, times, timesOnto, Except.map]
  | succ n ih =>
    funext c
    simp only [hmap, times, timesOnto]
    cases R c with
    | error e => rfl
    | ok p =>
      simp only [ih, hmap]
      cases times n R p.2 <;> simp [Except.map]

theorem times_zero (R : Reader α) : times 0 R = pure [] := rfl

/-- Reading one item more is reading the first and then the others. -/
theorem times_succ (n : Nat) (R : Reader α) :
    times (n + 1) R = R >>= fun a => (a :: ·) <$> times n R := by
  have hbind (c : Cursor) : (R >>= fun a => (a :: ·) <$> times n R) c
      = R c >>= fun p => ((p.1 :: ·) <$> times n R) p.2 := rfl
  funext c
  rw [hbind]
  simp only [times, timesOnto]
  cases R c with
  | error e => rfl
  | ok p => exact congrFun (timesOnto_eq R n [p.1]) p.2

/-- Repeating a definite reader is definite. -/
theorem Definite.times (h : R.Definite) (n : Nat) : (times n R).Definite := by
  induction n with
  | zero => exact definite_pure []
  | succ n ih =>
    rw [times_succ]
    exact h.bind fun a => ih.map _

/-- **A counted list** of items is definite if an item is. -/
theorem Definite.counted (h : R.Definite) : (counted R).Definite :=
  definite_u2.bind fun n => h.times n.toNat

/-- From `offset` on, the reader takes `octets` when it gives one item after the other. -/
def TakesEach (R : Reader α) (offset : Nat) (octets : Bytes) : List α → Prop
  | [] => octets = []
  | a :: rest => ∃ front back, octets = front ++ back ∧ R.Takes offset front a
      ∧ TakesEach R (offset + front.length) back rest

/-- A repetition takes the items one after the other, as many as it was asked for. -/
theorem takes_times_iff (h : R.Definite) {n : Nat} {items : List α} :
    (times n R).Takes offset octets items
      ↔ items.length = n ∧ R.TakesEach offset octets items := by
  induction n generalizing offset octets items with
  | zero =>
    rw [times_zero, takes_pure_iff]
    cases items with
    | nil => simp [TakesEach]
    | cons a rest => simp
  | succ n ih =>
    rw [times_succ, h.takes_bind_iff]
    constructor
    · rintro ⟨a, front, back, rfl, hfront, hback⟩
      rw [map_eq_bind, (h.times n).takes_bind_iff] at hback
      obtain ⟨rest, front', back', rfl, hrest, hpure⟩ := hback
      obtain ⟨rfl, rfl⟩ := takes_pure_iff.1 hpure
      obtain ⟨rfl, heach⟩ := ih.1 hrest
      exact ⟨rfl, front, front', by rw [List.append_nil], hfront, heach⟩
    · rintro ⟨hlength, heach⟩
      cases items with
      | nil => cases hlength
      | cons a rest =>
        obtain ⟨front, back, rfl, hfront, hback⟩ := heach
        exact ⟨a, front, back, rfl, hfront, (ih.2 ⟨Nat.succ.inj hlength, hback⟩).map _⟩

/-- **What a counted list takes** is the number of items and what each of them takes. -/
theorem takes_counted_iff (h : R.Definite) {items : List α} :
    (counted R).Takes offset octets items
      ↔ items.length < 65536 ∧ ∃ each, octets = Bytes.ofUInt16 (UInt16.ofNat items.length) ++ each
          ∧ R.TakesEach (offset + 2) each items := by
  rw [counted, definite_u2.takes_bind_iff]
  simp only [takes_u2_iff, takes_times_iff h]
  constructor
  · rintro ⟨n, front, each, rfl, rfl, hlength, heach⟩
    rw [hlength, UInt16.ofNat_toNat]
    exact ⟨n.toNat_lt, each, rfl, heach⟩
  · rintro ⟨hlength, each, rfl, heach⟩
    exact ⟨_, _, each, rfl, rfl, (UInt16.toNat_ofNat_of_lt' hlength).symm, heach⟩

/-- A row of items in two parts is taken from the octets of the first and then those of the second. -/
theorem takesEach_append_iff {front back : List α} :
    R.TakesEach offset octets (front ++ back)
      ↔ ∃ before behind, octets = before ++ behind ∧ R.TakesEach offset before front
          ∧ R.TakesEach (offset + before.length) behind back := by
  induction front generalizing offset octets with
  | nil => simp [TakesEach]
  | cons a rest ih =>
    simp only [List.cons_append, TakesEach, ih]
    constructor
    · rintro ⟨first, _, rfl, ha, before, behind, rfl, hrest, hback⟩
      refine ⟨first ++ before, behind, by simp, ⟨first, before, rfl, ha, hrest⟩, ?_⟩
      rwa [List.length_append, ← Nat.add_assoc]
    · rintro ⟨_, behind, rfl, ⟨first, before, rfl, ha, hrest⟩, hback⟩
      refine ⟨first, before ++ behind, by simp, ha, before, behind, rfl, hrest, ?_⟩
      rwa [List.length_append, ← Nat.add_assoc] at hback

/-- An item was read from a part of what the items were read from. -/
theorem TakesEach.of_mem {items : List α} (h : R.TakesEach offset octets items) (ha : a ∈ items) :
    ∃ offset part, R.Takes offset part a ∧ part.length ≤ octets.length := by
  induction items generalizing offset octets with
  | nil => cases ha
  | cons first rest ih =>
    obtain ⟨front, back, rfl, hfirst, hrest⟩ := h
    rw [List.length_append]
    obtain rfl | ha := List.mem_cons.1 ha
    · exact ⟨offset, front, hfirst, Nat.le_add_right ..⟩
    · obtain ⟨offset', part, hpart, hle⟩ := ih hrest ha
      exact ⟨offset', part, hpart, Nat.le_add_left_of_le hle⟩

/-- An item was read from a place inside of what the items were read from. -/
theorem TakesEach.hasAt_of_mem {file : Bytes} {items : List α} (h : R.TakesEach offset octets items)
    (hat : file.HasAt offset octets) (ha : a ∈ items) :
    ∃ offset part, file.HasAt offset part ∧ R.Takes offset part a := by
  induction items generalizing offset octets with
  | nil => cases ha
  | cons first rest ih =>
    obtain ⟨front, back, rfl, hfirst, hrest⟩ := h
    obtain rfl | ha := List.mem_cons.1 ha
    · exact ⟨offset, front, hat.left, hfirst⟩
    · exact ih hrest hat.right ha

/-- **Items read elsewhere.** If every item of at most `n` octets is read by another reader, wherever
it stands, then so are such items in a row. -/
theorem exists_takesEach {R' : Reader β} {S : α → β → Prop} {n : Nat} {items : List α}
    (h : ∀ offset offset' octets a, octets.length ≤ n → R.Takes offset octets a →
      ∃ b, R'.Takes offset' octets b ∧ S a b)
    {offset' : Nat} (hlength : octets.length ≤ n) (heach : R.TakesEach offset octets items) :
    ∃ items', R'.TakesEach offset' octets items' ∧ List.Forall₂ S items items' := by
  induction items generalizing offset offset' octets with
  | nil => exact ⟨[], heach, .nil⟩
  | cons a rest ih =>
    obtain ⟨front, back, rfl, hfront, hback⟩ := heach
    rw [List.length_append] at hlength
    obtain ⟨b, hb, hab⟩ := h offset offset' front a (by omega) hfront
    obtain ⟨rest', hrest', hall⟩ := ih (by omega) hback
    exact ⟨b :: rest', ⟨front, back, rfl, hb, hrest'⟩, .cons hab hall⟩

/-! ### Plain readers -/

/-- A definite reader that does not look at the offset either. -/
structure Plain (R : Reader α) : Prop where
  definite : R.Definite
  portable {offset offset' : Nat} {octets : Bytes} {a : α} :
    R.Takes offset octets a → R.Takes offset' octets a

/-- A reader that only answers asks for no offset. -/
theorem plain_pure (a : α) : Plain (pure a : Reader α) where
  definite := definite_pure a
  portable h := takes_pure_iff.2 (takes_pure_iff.1 h)

/-- A reader that only fails asks for no offset. -/
theorem plain_throw (e : FormatError) : Plain (throw e : Reader α) where
  definite := definite_throw e
  portable h := (takes_throw_iff.1 h).elim

/-- The reader of one byte does not look at the offset. -/
theorem plain_u1 : Plain u1 where
  definite := definite_u1
  portable h := takes_u1_iff.2 (takes_u1_iff.1 h)

/-- The reader of a two-byte number does not look at the offset. -/
theorem plain_u2 : Plain u2 where
  definite := definite_u2
  portable h := takes_u2_iff.2 (takes_u2_iff.1 h)

/-- The reader of a four-byte number does not look at the offset. -/
theorem plain_u4 : Plain u4 where
  definite := definite_u4
  portable h := takes_u4_iff.2 (takes_u4_iff.1 h)

/-- The reader of a run of octets does not look at the offset. -/
theorem plain_bytes (n : Nat) : Plain (bytes n) where
  definite := definite_bytes n
  portable h := takes_bytes_iff.2 (takes_bytes_iff.1 h)

/-- A sequence of readers that do not look at the offset does not either. -/
theorem Plain.bind {f : α → Reader β} (h : R.Plain) (hf : ∀ a, (f a).Plain) :
    (R >>= f).Plain where
  definite := h.definite.bind fun a => (hf a).definite
  portable htakes := by
    obtain ⟨a, front, back, rfl, hfront, hback⟩ :=
      h.definite.takes_bind_iff.1 htakes
    exact (h.portable hfront).bind ((hf a).portable hback)

theorem Plain.map (f : α → β) (h : R.Plain) : (f <$> R).Plain :=
  h.bind fun _ => plain_pure _

/-- A choice between two plain readers is plain. -/
theorem Plain.ite {p : Prop} [Decidable p] {S : Reader α} (hR : R.Plain) (hS : S.Plain) :
    (if p then R else S).Plain := by
  split
  · exact hR
  · exact hS

/-- Repeating a plain reader is plain. -/
theorem Plain.times (h : R.Plain) (n : Nat) : (times n R).Plain := by
  induction n with
  | zero => exact plain_pure []
  | succ n ih =>
    rw [times_succ]
    exact h.bind fun a => ih.map _

theorem Plain.counted (h : R.Plain) : (counted R).Plain :=
  plain_u2.bind fun n => h.times n.toNat

/-! ### Written tables -/

/-- Items that are read wherever they stand are read one after the other. -/
theorem takes_times {encode : α → Bytes} {items : List α}
    (h : ∀ a ∈ items, ∀ offset, R.Takes offset (encode a) a) (offset : Nat) :
    (times items.length R).Takes offset (items.flatMap encode) items := by
  induction items generalizing offset with
  | nil => exact takes_pure [] offset
  | cons a rest ih =>
    rw [List.length_cons, times_succ, List.flatMap_cons]
    refine (h a List.mem_cons_self offset).bind ?_
    exact (ih (fun b hb => h b (List.mem_cons_of_mem a hb)) _).map _

/-- **A written table** is read back, wherever its entries are. -/
theorem takes_encodeTable {encode : α → Bytes} {items : List α} (hlength : items.length < 65536)
    (h : ∀ a ∈ items, ∀ offset, R.Takes offset (encode a) a) (offset : Nat) :
    (counted R).Takes offset (encodeTable encode items) items := by
  have hcount : (UInt16.ofNat items.length).toNat = items.length :=
    UInt16.toNat_ofNat_of_lt' hlength
  refine (takes_u2 _ offset).bind ?_
  rw [hcount]
  exact takes_times h _

end AdviceWeaver.Reader
