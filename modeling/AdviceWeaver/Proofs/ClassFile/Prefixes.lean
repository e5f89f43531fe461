import AdviceWeaver.Proofs.ClassFile.Bodies
import AdviceWeaver.Proofs.ClassFile.Depth

/-!
# What a class file is read from

A class file is read from a definite prefix of the octets. What follows that prefix is not looked
at, and if the prefix is cut short anywhere, reading runs out of octets before it finds any other
defect: every reader asks for what it needs before it judges what it got (`Reader.Exacting`).

## Main results

* `Reader.Exacting.bind`, `Reader.Exacting.counted` — readers put together from exacting ones are
  exacting.
* `ClassFile.read_prefix` — the prefix that a class file is read from.
-/

namespace AdviceWeaver

namespace Reader

variable {α β : Type} {R : Reader α}

/-! ### Exacting readers -/

/-- Wherever what the reader takes is cut short, it runs out of octets. -/
def Exacting (R : Reader α) : Prop :=
  ∀ offset cut missing a, missing ≠ [] → R.Takes offset (cut ++ missing) a →
    R ⟨offset, cut⟩ = .error .unexpectedEnd

/-- A reader that takes nothing cannot be cut short. -/
theorem exacting_of_takes_nil (h : ∀ offset octets a, R.Takes offset octets a → octets = []) :
    R.Exacting := by
  intro offset cut missing a hne htakes
  exact absurd (List.append_eq_nil_iff.1 (h _ _ _ htakes)).2 hne

theorem exacting_pure (a : α) : Exacting (pure a : Reader α) :=
  exacting_of_takes_nil fun _ _ _ h => (takes_pure_iff.1 h).1

theorem exacting_throw (e : FormatError) : Exacting (throw e : Reader α) :=
  exacting_of_takes_nil fun _ _ _ h => (takes_throw_iff.1 h).elim

theorem exacting_lift (x : Except FormatError α) : Exacting (liftM x : Reader α) :=
  exacting_of_takes_nil fun _ _ _ h => (takes_lift_iff.1 h).1

theorem exacting_offset : Exacting Reader.offset :=
  exacting_of_takes_nil fun _ _ _ h => (takes_offset_iff.1 h).1

/-- Content that was set apart is not taken from what is left. -/
theorem exacting_within (start : Nat) (content : Bytes) (R : Reader α) :
    Exacting (within start content R) :=
  exacting_of_takes_nil fun _ _ _ h => (takes_within_iff.1 h).1

/-- A run of octets is cut short where there are fewer than asked for. -/
theorem exacting_bytes (n : Nat) : Exacting (bytes n) := by
  intro offset cut missing taken hne htakes
  obtain ⟨rfl, hlength⟩ := takes_bytes_iff.1 htakes
  have hpos := List.length_pos_iff.2 hne
  rw [List.length_append] at hlength
  have hnone : Bytes.split? n cut = none := Bytes.split?_eq_none_iff.2 (by omega)
  simp only [bytes, hnone]

/-- A byte is cut short only where there is none. -/
theorem exacting_u1 : Exacting u1 := by
  intro offset cut missing n hne htakes
  have hlength := congrArg List.length (takes_u1_iff.1 htakes)
  have hpos := List.length_pos_iff.2 hne
  match cut, hlength with
  | [], _ => rfl
  | _ :: _, hlength =>
    simp only [List.length_append, List.length_cons, List.length_nil] at hlength
    omega

/-- A two-byte number is cut short where one octet is left, or none. -/
theorem exacting_u2 : Exacting u2 := by
  intro offset cut missing n hne htakes
  have hlength := congrArg List.length (takes_u2_iff.1 htakes)
  have hpos := List.length_pos_iff.2 hne
  match cut, hlength with
  | [], _ | [_], _ => rfl
  | _ :: _ :: _, hlength =>
    simp only [List.length_append, List.length_cons, Bytes.length_ofUInt16] at hlength
    omega

/-- A four-byte number is cut short where fewer than four octets are left. -/
theorem exacting_u4 : Exacting u4 := by
  intro offset cut missing n hne htakes
  have hlength := congrArg List.length (takes_u4_iff.1 htakes)
  have hpos := List.length_pos_iff.2 hne
  match cut, hlength with
  | [], _ | [_], _ | [_, _], _ | [_, _, _], _ => rfl
  | _ :: _ :: _ :: _ :: _, hlength =>
    simp only [List.length_append, List.length_cons, Bytes.length_ofUInt32] at hlength
    omega

/-- **Readers in sequence** are exacting if each of them is: the cut is either in what the first one
takes or behind it. -/
theorem Exacting.bind {f : α → Reader β} (hR : R.Definite) (h : R.Exacting)
    (hf : ∀ a, (f a).Exacting) : (R >>= f).Exacting := by
  intro offset cut missing b hne htakes
  obtain ⟨a, front, back, hsplit, hfront, hback⟩ := hR.takes_bind_iff.1 htakes
  have hbind : (R >>= f) ⟨offset, cut⟩ = R ⟨offset, cut⟩ >>= fun p => f p.1 p.2 := rfl
  rw [hbind]
  obtain ⟨lost, rfl, rfl⟩ | ⟨kept, rfl, rfl⟩ := List.append_eq_append_iff.1 hsplit
  · by_cases hlost : lost = []
    · subst hlost
      rw [List.append_nil] at hfront
      have hread := hfront []
      rw [List.append_nil] at hread
      rw [hread]
      exact hf a _ [] _ b hne (by simpa using hback)
    · rw [h offset cut lost a hlost hfront]
      rfl
  · rw [hfront kept]
    exact hf a _ kept missing b hne hback

/-- A choice between two exacting readers is exacting. -/
theorem Exacting.ite {p : Prop} [Decidable p] {S : Reader α} (hR : R.Exacting) (hS : S.Exacting) :
    (if p then R else S).Exacting := by
  split
  · exact hR
  · exact hS

/-- A repetition is cut short in one of its items, by induction on their number. -/
theorem Exacting.times (hR : R.Definite) (h : R.Exacting) (n : Nat) : (times n R).Exacting := by
  induction n with
  | zero => exact exacting_pure []
  | succ n ih =>
    rw [times_succ]
    refine h.bind hR fun a => ?_
    rw [map_eq_bind]
    exact ih.bind (hR.times n) fun _ => exacting_pure _

/-- **A counted list** is exacting if an item is. -/
theorem Exacting.counted (hR : R.Definite) (h : R.Exacting) : (counted R).Exacting :=
  exacting_u2.bind definite_u2 fun n => h.times hR n.toNat

/-! ### The parts of a class file -/

section Fields

theorem exacting_one (f : UInt16 → α) : Exacting (do return f (← u2)) :=
  exacting_u2.bind definite_u2 fun _ => exacting_pure _

theorem exacting_two (f : UInt16 → UInt16 → α) : Exacting (do return f (← u2) (← u2)) :=
  exacting_u2.bind definite_u2 fun a => exacting_one (f a)

theorem exacting_word (f : UInt32 → α) : Exacting (do return f (← u4)) :=
  exacting_u4.bind definite_u4 fun _ => exacting_pure _

end Fields

/-- The body of a constant is cut short in one of its numbers or in its text, whatever its tag. -/
theorem exacting_constantOf (tag : UInt8) : Exacting (constantOf tag) := by
  unfold constantOf
  split
  · exact exacting_u2.bind definite_u2 fun _ => (exacting_bytes _).bind (definite_bytes _) fun _ =>
      exacting_pure _
  · exact exacting_word _
  · exact exacting_word _
  · exact exacting_u4.bind definite_u4 fun _ => exacting_word _
  · exact exacting_u4.bind definite_u4 fun _ => exacting_word _
  · exact exacting_one _
  · exact exacting_one _
  · exact exacting_two _
  · exact exacting_two _
  · exact exacting_two _
  · exact exacting_two _
  · exact exacting_u1.bind definite_u1 fun _ => exacting_one _
  · exact exacting_one _
  · exact exacting_two _
  · exact exacting_two _
  · exact exacting_one _
  · exact exacting_one _
  · exact exacting_throw _

/-- A constant is cut short in its tag or in its body. -/
theorem exacting_constant : Exacting constant :=
  exacting_u1.bind definite_u1 exacting_constantOf

/-- The slots of a pool are cut short in one of the constants, by induction on the slots that are
missing. -/
theorem exacting_slotsOnto (missing : Nat) (slots : Array (Option Constant)) :
    (slotsOnto missing slots).Exacting := by
  induction missing using Nat.strongRecOn generalizing slots with
  | ind missing ih =>
    cases missing with
    | zero =>
      rw [slotsOnto_zero]
      exact exacting_pure slots
    | succ missing =>
      rw [slotsOnto_succ]
      exact exacting_constant.bind plain_constant.definite fun k =>
        (ih _ (by omega) _).ite (ih _ (by omega) _)

/-- A constant pool is cut short in its count or in one of its constants. -/
theorem exacting_constantPool : Exacting constantPool :=
  exacting_u2.bind definite_u2 fun _ => (exacting_slotsOnto _ _).bind (definite_slotsOnto _ _)
    fun _ => exacting_pure _

section Members

variable (pool : ConstantPool) (depth : Nat)

/-- The name of an attribute is resolved as soon as its header is read, and its content is read
within its length: neither can fail sooner than in the whole file. -/
theorem exacting_attributeEntry (nested : Reader (List Attribute)) :
    (attributeEntry pool nested).Exacting := by
  rw [attributeEntry_eq]
  exact exacting_offset.bind definite_offset fun _ => exacting_u2.bind definite_u2 fun _ =>
    exacting_u4.bind definite_u4 fun _ => (exacting_lift _).bind (definite_lift _) fun _ =>
      exacting_offset.bind definite_offset fun _ => (exacting_bytes _).bind (definite_bytes _)
        fun _ => (exacting_within _ _ _).bind (definite_within _ _ _) fun _ =>
          exacting_offset.bind definite_offset fun _ => exacting_pure _

/-- A table of attributes is cut short in its count or in one of the attributes. -/
theorem exacting_attributes : (attributes pool depth).Exacting := by
  cases depth with
  | zero => exact exacting_throw _
  | succ depth => exact (exacting_attributeEntry pool _).counted (definite_attributeEntry pool _)

/-- A field is cut short in its front or in its attributes. -/
theorem exacting_field : (field pool depth).Exacting := by
  rw [field_eq]
  exact (exacting_bytes 6).bind (definite_bytes 6) fun _ =>
    (exacting_attributes pool depth).bind (definite_attributes pool depth) fun _ => exacting_pure _

/-- A method is cut short in its front or in its attributes. -/
theorem exacting_method : (method pool depth).Exacting := by
  rw [method_eq]
  exact exacting_u2.bind definite_u2 fun _ => exacting_u2.bind definite_u2 fun _ =>
    exacting_u2.bind definite_u2 fun _ => (exacting_attributes pool depth).bind
      (definite_attributes pool depth) fun _ => exacting_pure _

/-- What follows the pool is cut short in the front of the class, in a member or in its attributes. -/
theorem exacting_members (minorVersion majorVersion : UInt16) (poolEnd : Nat) :
    (members depth minorVersion majorVersion pool poolEnd).Exacting := by
  have hfields := (exacting_field pool depth).counted (definite_field pool depth)
  have hmethods := (exacting_method pool depth).counted (definite_method pool depth)
  exact exacting_u2.bind definite_u2 fun _ => exacting_u2.bind definite_u2 fun _ =>
    exacting_u2.bind definite_u2 fun _ => (exacting_u2.counted definite_u2).bind definite_u2.counted
      fun _ => hfields.bind (definite_field pool depth).counted fun _ =>
        hmethods.bind (definite_method pool depth).counted fun _ =>
          (exacting_attributes pool depth).bind (definite_attributes pool depth) fun _ =>
            exacting_pure _

end Members

/-- A class is cut short at its head, in its pool or behind it. -/
theorem exacting_classFile (depth : Nat) : (classFile depth).Exacting := by
  rw [classFile_eq]
  exact exacting_u4.bind definite_u4 fun _ => (exacting_throw _).ite
    (exacting_u2.bind definite_u2 fun _ => exacting_u2.bind definite_u2 fun _ =>
      exacting_constantPool.bind definite_constantPool fun pool =>
        exacting_offset.bind definite_offset fun _ => exacting_members pool depth _ _ _)

/-- Reading a class is definite at every depth. -/
theorem definite_classFile (depth : Nat) : (classFile depth).Definite := by
  rw [classFile_eq]
  exact definite_u4.bind fun _ => (definite_throw _).ite
    (definite_u2.bind fun _ => definite_u2.bind fun _ => definite_constantPool.bind fun pool =>
      definite_offset.bind fun _ => definite_members depth _ _ pool _)

/-- What a class file takes at one depth it takes at any depth that suffices. -/
theorem takes_classFile {depth depth' offset : Nat} {octets : Bytes} {c : ClassFile}
    (h : (classFile depth).Takes offset octets c) (hdepth : octets.length ≤ depth)
    (hdepth' : octets.length ≤ depth') : (classFile depth').Takes offset octets c := by
  have hread := h []
  have hagree := agreeWithin_classFile hdepth hdepth' ⟨offset, octets⟩ (Nat.le_refl _)
  rw [List.append_nil, hagree] at hread
  exact (definite_classFile depth').takes_of_eq_ok hread

end Reader

/-! ### Class files -/

/-- **A class file is read from a definite prefix**, as far as the reader gets in the end. With
anything else behind that prefix the same class is read, with the same spans; cut short anywhere,
the prefix is found to end too soon, and no other defect is found in it. -/
theorem ClassFile.read_prefix {bytes : Bytes} {c : ClassFile} (h : ClassFile.read bytes = .ok c) :
    ∃ n ≤ bytes.length,
      Reader.classFile bytes.length ⟨0, bytes⟩ = .ok (c, ⟨n, bytes.drop n⟩)
        ∧ (∀ more, ClassFile.read (bytes.take n ++ more) = .ok c)
        ∧ ∀ m < n, ClassFile.read (bytes.take m) = .error .unexpectedEnd := by
  unfold ClassFile.read at h
  split at h
  case h_2 => cases h
  next last hread =>
  cases h
  obtain ⟨octets, hrest, hoffset, htakes⟩ := Reader.definite_classFile _ _ _ _ hread
  obtain ⟨n, rest⟩ := last
  obtain rfl : n = octets.length := by simpa using hoffset
  obtain rfl : bytes = octets ++ rest := hrest
  have hle : octets.length ≤ (octets ++ rest).length := by simp
  refine ⟨octets.length, hle, by rw [hread, List.drop_left], fun more => ?_, fun m hm => ?_⟩
  · have hmore : octets.length ≤ (octets ++ more).length := by simp
    rw [List.take_left, ClassFile.read, Reader.takes_classFile htakes hle hmore more]
  · have hcut : (octets ++ rest).take m = octets.take m :=
      List.take_append_of_le_length (Nat.le_of_lt hm)
    have hshort : (octets.take m).length ≤ (octets ++ rest).length := by
      rw [List.length_take, List.length_append]
      omega
    have hmissing : octets.drop m ≠ [] := by
      rw [ne_eq, List.drop_eq_nil_iff]
      omega
    have hend : Reader.classFile (octets ++ rest).length ⟨0, octets.take m⟩
        = .error .unexpectedEnd := by
      refine Reader.exacting_classFile _ 0 (octets.take m) (octets.drop m) c hmissing ?_
      rw [List.take_append_drop]
      exact htakes
    rw [hcut, ClassFile.read_eq hshort, hend]
    rfl

/-- A class with a method, a switch and frames, and two octets behind it, which do not belong to
it. -/
theorem ClassFile.read_prefix_selecting :
    ∃ c, ClassFile.read (ClassFile.selecting ++ [0xCA, 0xFE]) = .ok c
      ∧ (∀ more, ClassFile.read (ClassFile.selecting ++ more) = .ok c)
      ∧ ∀ m < ClassFile.selecting.length,
        ClassFile.read ((ClassFile.selecting ++ [0xCA, 0xFE]).take m) = .error .unexpectedEnd := by
  have hok : (ClassFile.read (ClassFile.selecting ++ [0xCA, 0xFE])).isOk = true := by
    decide +kernel
  have hlast : ((Reader.classFile (ClassFile.selecting ++ [0xCA, 0xFE]).length
      ⟨0, ClassFile.selecting ++ [0xCA, 0xFE]⟩).toOption.map fun p => p.2.offset)
        = some ClassFile.selecting.length := by
    decide +kernel
  obtain ⟨c, hread⟩ := exists_of_isOk hok
  obtain ⟨n, -, hend, hmore, hcut⟩ := ClassFile.read_prefix hread
  rw [hend] at hlast
  have hn : n = ClassFile.selecting.length := Option.some.inj hlast
  rw [hn] at hmore hcut
  rw [List.take_left] at hmore
  exact ⟨c, hread, hmore, hcut⟩

end AdviceWeaver
