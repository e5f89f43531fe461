import AdviceWeaver.Proofs.Bytecode.NewBody
import AdviceWeaver.Proofs.ClassFile.Tables

/-!
# Reading written method bodies

The tables of a method body are read back as they were written, and so is the body itself.

## Main results

* `Reader.takes_code` — a written body is read back.
-/

namespace AdviceWeaver.Reader

/-- **A written body** is read back, its nested attributes being what is read behind it. -/
theorem takes_code {α : Type} {nested : Reader (List Attribute)} {body : CodeOf α}
    {attributes : List Attribute} {offset : Nat} {octets : Bytes} (hne : body.code ≠ [])
    (hlength : body.code.length ≤ 65535) (hhandlers : body.handlers.length < 65536)
    (h : nested.Takes (offset + body.front.length) octets attributes) :
    (code nested).Takes offset (body.front ++ octets)
      { body with attributes } := by
  have hcount : (UInt32.ofNat body.code.length).toNat = body.code.length :=
    UInt32.toNat_ofNat_of_lt' (Nat.lt_of_le_of_lt hlength (by decide))
  have hin : ¬ (UInt32.ofNat body.code.length = 0 ∨ 65535 < UInt32.ofNat body.code.length) := by
    have hpos := List.length_pos_iff.2 hne
    rw [UInt32.lt_iff_toNat_lt, ← UInt32.toNat_inj, hcount, not_or]
    exact ⟨by simpa using hne, Nat.not_lt.2 hlength⟩
  have hoctets : body.front ++ octets = Bytes.ofUInt16 body.maxStack
      ++ (Bytes.ofUInt16 body.maxLocals ++ (Bytes.ofUInt32 (UInt32.ofNat body.code.length)
        ++ (body.code ++ (encodeTable ExceptionHandler.encode body.handlers
          ++ (octets ++ []))))) := by
    simp [CodeOf.front]
  have hoffset : offset + body.front.length = offset + 2 + 2 + 4 + body.code.length
      + (encodeTable ExceptionHandler.encode body.handlers).length := by
    simp only [CodeOf.front, List.length_append, Bytes.length_ofUInt16, Bytes.length_ofUInt32]
    omega
  have hcode : (bytes (UInt32.ofNat body.code.length).toNat).Takes (offset + 2 + 2 + 4) body.code
      body.code := by
    rw [hcount]
    exact takes_bytes _ _
  rw [hoctets]
  refine (takes_u2 _ _).bind ((takes_u2 _ _).bind ((takes_u4 _ _).bind ?_))
  rw [if_neg hin]
  refine hcode.bind ((takes_encodeTable hhandlers (fun h _ => takes_exceptionHandler h) _).bind ?_)
  rw [hoffset] at h
  exact h.bind (takes_pure _ _)

/-! ### What bodies were read from -/

variable {nested : Reader (List Attribute)} {offset : Nat} {octets : Bytes}

/-- A body is its sizes, its code, its handlers and its attributes, if the code has a length that is
allowed. -/
theorem code_eq (nested : Reader (List Attribute)) :
    code nested = u2 >>= fun maxStack => u2 >>= fun maxLocals => u4 >>= fun length =>
      if length = 0 ∨ 65535 < length then throw (.badAttribute "Code")
      else bytes length.toNat >>= fun code => counted exceptionHandler >>= fun handlers =>
        nested >>= fun attributes =>
          pure { maxStack, maxLocals, code, handlers, attributes } :=
  rfl

/-- What follows the length of the code is read without looking behind it. -/
theorem definite_codeOf (h : nested.Definite) (maxStack maxLocals : UInt16) (length : UInt32) :
    Definite (if length = 0 ∨ 65535 < length then throw (.badAttribute "Code")
      else bytes length.toNat >>= fun code => counted exceptionHandler >>= fun handlers =>
        nested >>= fun attributes =>
          pure ({ maxStack, maxLocals, code, handlers, attributes } : Code)) :=
  (definite_throw _).ite ((definite_bytes _).bind fun _ =>
    plain_exceptionHandler.counted.definite.bind fun _ => h.bind fun _ => definite_pure _)

/-- A body is read without looking behind its attributes. -/
theorem definite_code (h : nested.Definite) : (code nested).Definite := by
  rw [code_eq]
  exact definite_u2.bind fun _ => definite_u2.bind fun _ => definite_u4.bind fun _ =>
    definite_codeOf h _ _ _

/-- **A body** that was read is its front and what its nested attributes were read from. -/
theorem takes_code_iff (h : nested.Definite) {body : Code} :
    (code nested).Takes offset octets body
      ↔ ∃ each, octets = body.front ++ each ∧ body.code ≠ [] ∧ body.code.length ≤ 65535
          ∧ body.handlers.length < 65536
          ∧ nested.Takes (offset + body.front.length) each body.attributes := by
  constructor
  · intro htakes
    rw [code_eq] at htakes
    obtain ⟨maxStack, _, rfl, h₁⟩ := takes_u2_bind_iff.1 htakes
    obtain ⟨maxLocals, _, rfl, h₂⟩ := takes_u2_bind_iff.1 h₁
    obtain ⟨length, _, rfl, h₃⟩ := takes_u4_bind_iff.1 h₂
    split at h₃
    · exact (takes_throw_iff.1 h₃).elim
    next hin =>
    have hhandlers := plain_exceptionHandler.counted.definite
    obtain ⟨code, _, _, rfl, hcode, h₄⟩ := (definite_bytes _).takes_bind_iff.1 h₃
    obtain ⟨handlers, _, _, rfl, htable, h₅⟩ := hhandlers.takes_bind_iff.1 h₄
    obtain ⟨attributes, each, _, rfl, hnested, h₆⟩ := h.takes_bind_iff.1 h₅
    obtain ⟨rfl, rfl⟩ := takes_pure_iff.1 h₆
    obtain ⟨rfl, hlength⟩ := takes_bytes_iff.1 hcode
    obtain rfl := eq_encodeTable plain_exceptionHandler.definite eq_encode_of_exceptionHandler
      htable
    rw [not_or, UInt32.lt_iff_toNat_lt, ← UInt32.toNat_inj, ← hlength] at hin
    refine ⟨each, ?_, ?_, Nat.not_lt.1 hin.2, ?_, ?_⟩
    · simp [CodeOf.front, hlength]
    · exact List.ne_nil_of_length_pos (Nat.pos_of_ne_zero hin.1)
    · exact ((takes_counted_iff plain_exceptionHandler.definite).1 htable).1
    · convert hnested using 1
      simp only [CodeOf.front, List.length_append, Bytes.length_ofUInt16, Bytes.length_ofUInt32]
      omega
  · rintro ⟨each, rfl, hne, hlength, hhandlers, hnested⟩
    exact takes_code hne hlength hhandlers hnested

end AdviceWeaver.Reader
