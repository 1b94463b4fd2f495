import ZeldaOS.VmMonitor.EmulationCorrect

/-!
# The instructions that the decoder accepts

The instruction set of the emulation is MOV and MOVZX with a memory operand: legacy prefixes, a REX
prefix or none, the escape byte 0x0f for MOVZX, and the last byte of the opcode (`InstructionForm`).
The decoder takes the escape byte for one more prefix, and the bytes 0x38 and 0x3a with it; what it
accepts is any run of these, a REX prefix or none, and one of the eight last bytes (`DecoderForm`,
`accepts_iff`). A stream has at most one such form (`DecoderForm.unique`). So the two languages
differ in both directions (`decoder_language_iff`): an escape byte is neither required in front of
B6 and B7 nor excluded in front of the others, and behind a REX prefix it is not taken.
-/

namespace ZeldaOS

/-- The decoder returns, with an operand hint. -/
def Accepts (s : List UInt8) : Prop :=
  ∃ c, decodeX8664Instruction s = some c ∧ c.operandHint ≠ .none

/-- The stream starts with an instruction of the set. -/
def InstructionForm (s legacy : List UInt8) (rex : Option (Fin 16)) (op : MovOpcode) : Prop :=
  (∀ b ∈ legacy, b ∈ legacyBytes) ∧
    ∃ rest, s = legacy ++ (rex.toList.map rexPrefixByte ++ (op.escape ++ op.byte :: rest))

/-- The stream starts with what the decoder takes for an instruction. -/
def DecoderForm (s pre : List UInt8) (rex : Option (Fin 16)) (op : MovOpcode) : Prop :=
  (∀ b ∈ pre, (prefixField b).isSome = true) ∧
    ∃ rest, s = pre ++ (rex.toList.map rexPrefixByte ++ op.byte :: rest)

section
variable {s pre pre' legacy : List UInt8} {rex rex' : Option (Fin 16)} {op op' : MovOpcode}
  {c c' : InstructionContext}

/-! ## The language of the decoder -/

/-- What has the form is accepted. -/
theorem DecoderForm.accepts (h : DecoderForm s pre rex op) : Accepts s := by
  obtain ⟨hpre, rest, rfl⟩ := h
  obtain ⟨-, hrange, hhint⟩ := opcode_byte_spec op
  rw [Accepts, decode_append rex hpre (prefixField_head rex op rest) hrange, resolveOpcode_mov]
  refine ⟨_, rfl, ?_⟩
  rw [(resolve_spec op _ _).2.1]
  exact hhint

/-- A stream is a run of prefixes and what follows them. -/
theorem exists_prefixes : ∀ s : List UInt8, ∃ pre rest, s = pre ++ rest ∧
    (∀ b ∈ pre, (prefixField b).isSome = true) ∧ prefixField (rest.headD 0) = none
  | [] => ⟨[], [], rfl, by simp, rfl⟩
  | b :: s => by
    cases hb : prefixField b with
    | none => exact ⟨[], b :: s, rfl, by simp, hb⟩
    | some set =>
      obtain ⟨pre, rest, rfl, hpre, hrest⟩ := exists_prefixes s
      refine ⟨b :: pre, rest, rfl, fun x hx => ?_, hrest⟩
      rcases List.mem_cons.1 hx with rfl | hx
      · rw [hb, Option.isSome_some]
      · exact hpre x hx

/-- The REX prefixes are the bytes of their range. -/
theorem exists_rexPrefixByte : ∀ b : UInt8, 0x40 ≤ b ∧ b ≤ 0x4f → ∃ r, rexPrefixByte r = b := by
  intro b hb
  have hlow : 0x40 ≤ b.toNat := UInt8.le_iff_toNat_le.1 hb.1
  have hhigh : b.toNat ≤ 0x4f := UInt8.le_iff_toNat_le.1 hb.2
  refine ⟨⟨b.toNat - 0x40, by omega⟩, UInt8.toNat_inj.1 ?_⟩
  rw [rexPrefixByte, UInt8.toNat_ofNat', Nat.mod_eq_of_lt (by dsimp only; omega)]
  dsimp only
  omega

/-- The test for a REX prefix takes one, if there is one. -/
theorem resolveRex_form (s : List UInt8) (c : InstructionContext) :
    ∃ rex : Option (Fin 16), s = rex.toList.map rexPrefixByte ++ (resolveRex s c).1 := by
  rw [resolveRex]
  split
  · next hb =>
    cases s with
    | nil => exact absurd hb (by decide)
    | cons b s =>
      obtain ⟨r, hr⟩ := exists_rexPrefixByte b hb
      exact ⟨some r, by simp [hr]⟩
  · exact ⟨none, rfl⟩

/-- Only the opcodes of the table are found. -/
theorem resolveOpcode_form (h : resolveOpcode s c = some c') :
    ∃ (op : MovOpcode) (rest : List UInt8), s = op.byte :: rest := by
  cases s with
  | nil =>
    have hnone : (predefinedOpcodes.find? fun d =>
        d.mask.value &&& d.code == d.mask.value &&& streamWord [] 4) = none := by rfl
    rw [resolveOpcode] at h
    dsimp only at h
    rw [hnone] at h
    cases h
  | cons b s =>
    rw [resolveOpcode] at h
    dsimp only at h
    rw [find_predefinedOpcodes] at h
    have hfound : ∃ d ∈ predefinedOpcodes, d.code = b.toNat := by
      cases hfind : predefinedOpcodes.find? (fun d => d.code == b.toNat) with
      | none =>
        rw [hfind] at h
        cases h
      | some d => exact ⟨d, List.mem_of_find?_eq_some hfind, by simpa using List.find?_some hfind⟩
    obtain ⟨d, hd, hcode⟩ := hfound
    have hbyte : ∃ op : MovOpcode, op.byte.toNat = d.code := by
      simp only [predefinedOpcodes, List.mem_cons, List.not_mem_nil, or_false] at hd
      rcases hd with rfl | rfl | rfl | rfl | rfl | rfl | rfl | rfl
      exacts [⟨.opB6, rfl⟩, ⟨.opB7, rfl⟩, ⟨.opC6, rfl⟩, ⟨.opC7, rfl⟩, ⟨.op8a, rfl⟩, ⟨.op8b, rfl⟩,
        ⟨.op88, rfl⟩, ⟨.op89, rfl⟩]
    obtain ⟨op, hop⟩ := hbyte
    refine ⟨op, s, ?_⟩
    rw [UInt8.toNat_inj.1 (hop.trans hcode)]

/-- What is accepted has the form. -/
theorem decoderForm_of_decode (h : decodeX8664Instruction s = some c) :
    ∃ pre rex op, DecoderForm s pre rex op := by
  obtain ⟨pre, rest, rfl, hpre, hrest⟩ := exists_prefixes s
  rw [decodeX8664Instruction, resolvePrefixes_append hpre hrest] at h
  dsimp only at h
  obtain ⟨rex, hrex⟩ := resolveRex_form rest (pre.foldl takePrefix {})
  obtain ⟨op, rest', hop⟩ := resolveOpcode_form h
  exact ⟨pre, rex, op, hpre, rest', by rw [← hop, ← hrex]⟩

/-- **What the decoder accepts.** -/
theorem accepts_iff : Accepts s ↔ ∃ pre rex op, DecoderForm s pre rex op :=
  ⟨fun ⟨_, hc, _⟩ => decoderForm_of_decode hc, fun ⟨_, _, _, h⟩ => h.accepts⟩

/-! ## Forms are unique -/

/-- The run of prefixes at the start of a stream is determined by the stream. -/
theorem prefixes_unique {rest rest' : List UInt8} : ∀ {pre pre' : List UInt8},
    (∀ b ∈ pre, (prefixField b).isSome = true) → (∀ b ∈ pre', (prefixField b).isSome = true) →
    prefixField (rest.headD 0) = none → prefixField (rest'.headD 0) = none →
    pre ++ rest = pre' ++ rest' → pre = pre' ∧ rest = rest'
  | [], [], _, _, _, _, h => ⟨rfl, h⟩
  | [], b :: pre', _, hpre', hrest, _, h => by
    have hb := hpre' b List.mem_cons_self
    rw [List.nil_append] at h
    rw [h, List.cons_append, List.headD_cons] at hrest
    rw [hrest] at hb
    cases hb
  | b :: pre, [], hpre, _, _, hrest', h => by
    have hb := hpre b List.mem_cons_self
    rw [List.nil_append] at h
    rw [← h, List.cons_append, List.headD_cons] at hrest'
    rw [hrest'] at hb
    cases hb
  | b :: pre, b' :: pre', hpre, hpre', hrest, hrest', h => by
    rw [List.cons_append, List.cons_append, List.cons.injEq] at h
    obtain ⟨rfl, h⟩ := h
    obtain ⟨rfl, hr⟩ := prefixes_unique (fun x hx => hpre x (List.mem_cons_of_mem _ hx))
      (fun x hx => hpre' x (List.mem_cons_of_mem _ hx)) hrest hrest' h
    exact ⟨rfl, hr⟩

/-- The opcodes have different bytes, -/
theorem MovOpcode.byte_injective : ∀ op op' : MovOpcode, op.byte = op'.byte → op = op' := by
  intro op op' h
  cases op <;> cases op' <;> first | rfl | exact absurd h (by decide)

/-- none of which is a REX prefix, -/
theorem rexPrefixByte_ne (r : Fin 16) (op : MovOpcode) : rexPrefixByte r ≠ op.byte := by
  intro h
  have hrange := rexPrefixByte_range r
  rw [h] at hrange
  exact (opcode_byte_spec op).2.1 hrange

/-- and these are different too. -/
theorem rexPrefixByte_injective : ∀ r r' : Fin 16, rexPrefixByte r = rexPrefixByte r' → r = r' := by
  decide

/-- **A stream has one form.** -/
theorem DecoderForm.unique (h : DecoderForm s pre rex op) (h' : DecoderForm s pre' rex' op') :
    pre = pre' ∧ rex = rex' ∧ op = op' := by
  obtain ⟨hpre, rest, rfl⟩ := h
  obtain ⟨hpre', rest', hs⟩ := h'
  obtain ⟨rfl, heq⟩ := prefixes_unique hpre hpre' (prefixField_head rex op rest)
    (prefixField_head rex' op' rest') hs
  refine ⟨rfl, ?_⟩
  cases rex with
  | none =>
    cases rex' with
    | none =>
      obtain ⟨hbyte, -⟩ := List.cons.inj heq
      exact ⟨rfl, MovOpcode.byte_injective _ _ hbyte⟩
    | some r =>
      obtain ⟨hbyte, -⟩ := List.cons.inj heq
      exact absurd hbyte.symm (rexPrefixByte_ne r op)
  | some r =>
    cases rex' with
    | none =>
      obtain ⟨hbyte, -⟩ := List.cons.inj heq
      exact absurd hbyte (rexPrefixByte_ne r op')
    | some r' =>
      obtain ⟨hrex, heq⟩ := List.cons.inj heq
      obtain ⟨hbyte, -⟩ := List.cons.inj heq
      exact ⟨congrArg some (rexPrefixByte_injective r r' hrex), MovOpcode.byte_injective _ _ hbyte⟩

/-! ## The two languages -/

/-- An opcode has at most one escape byte. -/
theorem MovOpcode.escape_eq (op : MovOpcode) : op.escape = [] ∨ op.escape = [0x0f] := by
  cases op <;> simp [MovOpcode.escape]

/-- An instruction without an escape byte behind a REX prefix is one for the decoder. -/
theorem InstructionForm.decoderForm (h : InstructionForm s legacy rex op)
    (hesc : rex = none ∨ op.escape = []) : DecoderForm s (legacy ++ op.escape) rex op := by
  obtain ⟨hlegacy, rest, rfl⟩ := h
  refine ⟨fun b hb => ?_, rest, ?_⟩
  · rcases List.mem_append.1 hb with hb | hb
    · exact prefixField_of_legacy (hlegacy b hb)
    · rcases op.escape_eq with he | he
      · rw [he] at hb
        cases hb
      · rw [he, List.mem_singleton] at hb
        rw [hb]
        rfl
  · rcases hesc with rfl | he
    · simp
    · simp [he]

/-- An instruction with an escape byte behind a REX prefix is none. -/
theorem InstructionForm.not_accepts (h : InstructionForm s legacy rex op)
    (hesc : ¬ (rex = none ∨ op.escape = [])) : ¬ Accepts s := by
  rintro ⟨c, hc, -⟩
  obtain ⟨hlegacy, rest, rfl⟩ := h
  rw [not_or] at hesc
  obtain ⟨r, rfl⟩ := Option.ne_none_iff_exists'.1 hesc.1
  rw [op.escape_eq.resolve_left hesc.2, List.singleton_append, decode_rex_escape_byte hlegacy] at hc
  cases hc

/-- Where both forms apply, the prefixes of the decoder are the legacy prefixes and the escape
byte. -/
theorem DecoderForm.of_instructionForm (h : DecoderForm s pre rex op)
    (h' : InstructionForm s legacy rex' op') :
    pre = legacy ++ op.escape ∧ (rex = none ∨ op.escape = []) := by
  by_cases hesc : rex' = none ∨ op'.escape = []
  · obtain ⟨rfl, rfl, rfl⟩ := h.unique (h'.decoderForm hesc)
    exact ⟨rfl, hesc⟩
  · exact absurd h.accepts (h'.not_accepts hesc)

end

/-- **When the decoder is right about a stream.** For every stream: it is accepted if and only if it
starts with an instruction of the set, exactly when the prefixes that the decoder takes, if it
accepts the stream, are legacy prefixes and the escape byte of the opcode, with no REX prefix behind
it; and no REX prefix stands in front of an escape byte, if the stream starts with an
instruction. -/
theorem decoder_language_iff (s : List UInt8) :
    (Accepts s ↔ ∃ legacy rex op, InstructionForm s legacy rex op) ↔
      (∀ pre rex op, DecoderForm s pre rex op →
        ∃ legacy, (∀ b ∈ legacy, b ∈ legacyBytes) ∧ pre = legacy ++ op.escape ∧
          (rex = none ∨ op.escape = [])) ∧
      ∀ legacy rex op, InstructionForm s legacy rex op → rex = none ∨ op.escape = [] := by
  constructor
  · intro h
    refine ⟨fun pre rex op hform => ?_, fun legacy rex op hform => ?_⟩
    · obtain ⟨legacy, rex', op', hinstr⟩ := h.1 hform.accepts
      exact ⟨legacy, hinstr.1, hform.of_instructionForm hinstr⟩
    · by_contra hesc
      exact hform.not_accepts hesc (h.2 ⟨legacy, rex, op, hform⟩)
  · rintro ⟨hdecoder, hinstr⟩
    constructor
    · intro hacc
      obtain ⟨pre, rex, op, hform⟩ := accepts_iff.1 hacc
      obtain ⟨legacy, hlegacy, rfl, hesc⟩ := hdecoder pre rex op hform
      obtain ⟨-, rest, rfl⟩ := hform
      refine ⟨legacy, rex, op, hlegacy, rest, ?_⟩
      rcases hesc with rfl | he
      · simp
      · simp [he]
    · rintro ⟨legacy, rex, op, hform⟩
      exact (hform.decoderForm (hinstr legacy rex op hform)).accepts

/-- **Both kinds of mistakes.** `mov dh, 0` (B6 00) and the jump 0F 88 are taken for memory moves,
and `movzx rax, byte [rbx]` (48 0F B6 03) is not decoded. -/
theorem decoder_language_differs :
    (Accepts [0xb6, 0x00] ∧ ¬ ∃ legacy rex op, InstructionForm [0xb6, 0x00] legacy rex op) ∧
    (Accepts [0x0f, 0x88, 0x03, 0x00, 0x00, 0x00] ∧
      ¬ ∃ legacy rex op, InstructionForm [0x0f, 0x88, 0x03, 0x00, 0x00, 0x00] legacy rex op) ∧
    (¬ Accepts [0x48, 0x0f, 0xb6, 0x03] ∧
      InstructionForm [0x48, 0x0f, 0xb6, 0x03] [] (some rexWOnly) .opB6) := by
  have hb6 : DecoderForm [0xb6, 0x00] [] none .opB6 := ⟨by simp, [0x00], rfl⟩
  have hjump : DecoderForm [0x0f, 0x88, 0x03, 0x00, 0x00, 0x00] [0x0f] none .op88 :=
    ⟨by decide +kernel, [0x03, 0x00, 0x00, 0x00], rfl⟩
  have hmovzx : InstructionForm [0x48, 0x0f, 0xb6, 0x03] [] (some rexWOnly) .opB6 :=
    ⟨by simp, [0x03], rfl⟩
  refine ⟨⟨hb6.accepts, ?_⟩, ⟨hjump.accepts, ?_⟩, hmovzx.not_accepts (by decide), hmovzx⟩
  · rintro ⟨legacy, rex, op, hform⟩
    have hpre := (hb6.of_instructionForm hform).1
    simp [MovOpcode.escape] at hpre
  · rintro ⟨legacy, rex, op, hform⟩
    obtain rfl : [0x0f] = legacy := by
      simpa [MovOpcode.escape] using (hjump.of_instructionForm hform).1
    exact absurd (hform.1 0x0f List.mem_cons_self) (by decide)

end ZeldaOS
