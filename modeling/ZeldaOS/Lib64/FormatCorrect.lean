import ZeldaOS.Lib64.Format

/-!
# What the formatters do

`format` is the meaning of a format string, apart from any cursor or buffer: the characters it
stands for, the arguments that are left, and the addresses of the strings that it reads.

`printk_mp_raw` and `sprintf_raw` are two programs. What a round of the main loop does with a
character, with a byte that is no directive and with a directive is proved of each from its own body
and its own switch (`printkRounds`, `sprintfRounds`). From it follows, for both, that the loop
simulates the meaning of the format round by round (`Formatter.Rounds.loop_format`), as long as the
characters that go out do not overwrite what is still to be read (`Formatter.Stable`). Then the
cursor is on the NUL of the format, with one exception: a `%` at the end of the format takes the NUL
for its directive, and the cursor is behind it (`openPercent`).
-/

namespace ZeldaOS

/-! ## The meaning of a format -/

/-- The directives of the format language. -/
inductive Directive
  | s
  | c
  | d
  | q
  | x
  | X
deriving DecidableEq, Repr

/-- The letter of a directive. -/
def Directive.byte : Directive → UInt8
  | .s => 0x73
  | .c => 0x63
  | .d => 0x64
  | .q => 0x71
  | .x => 0x78
  | .X => 0x58

/-- All directives. -/
def Directive.all : List Directive := [.s, .c, .d, .q, .x, .X]

/-- The directive that a byte behind `%` stands for. -/
def Directive.ofByte (b : UInt8) : Option Directive := all.find? fun dir => dir.byte == b

/-- The byte of a directive is its letter. -/
theorem Directive.byte_of_ofByte {b : UInt8} {dir : Directive} (h : ofByte b = some dir) :
    b = dir.byte :=
  (eq_of_beq (List.find?_some (p := fun dir : Directive => dir.byte == b) (l := all) h)).symm

/-- A byte that is no directive is none of the letters. -/
theorem Directive.byte_ne_of_ofByte {b : UInt8} (h : ofByte b = none) (dir : Directive) :
    b ≠ dir.byte := by
  intro hb
  have hall : dir ∈ all := by cases dir <;> decide
  exact List.find?_eq_none.1 h dir hall (by rw [hb]; exact beq_self_eq_true _)

/-- The last byte of the format is a `%` that starts a directive. -/
def openPercent : List UInt8 → Bool
  | [] => false
  | b :: text =>
    if b ≠ 0x25 then openPercent text
    else
      match text with
      | [] => true
      | _ :: text => openPercent text

/-- What a directive stands for. -/
def Directive.print (m : Memory) (arg : Nat) : Directive → Option (List UInt8)
  | .s => stringAt m (2 ^ 64) arg
  | .c => some [UInt8.ofNat arg]
  | .d => some (resolveSigned 32 arg)
  | .q => some (resolveSigned 64 arg)
  | .x => some (resolveHexQword arg true)
  | .X => some (resolveHexQword arg false)

/-- The addresses that a directive reads, a string with its NUL. -/
def Directive.reads (arg : Nat) (out : List UInt8) : Directive → List Nat
  | .s => List.range' arg (out.length + 1)
  | _ => []

/-- What a format stands for. -/
structure Printed where
  out : List UInt8
  /-- The arguments that are left. -/
  args : List Nat
  /-- The addresses of the bytes of strings that are read. -/
  reads : List Nat
deriving DecidableEq, Repr

/-- The meaning of a format, none if an argument is missing or a string has no end. -/
def format (m : Memory) : List UInt8 → List Nat → Option Printed
  | [], args => some ⟨[], args, []⟩
  | b :: text, args =>
    if b ≠ 0x25 then (format m text args).map fun p => { p with out := b :: p.out }
    else
      match text with
      | [] => some ⟨[], args, []⟩
      | b' :: text =>
        match Directive.ofByte b' with
        | none => format m text args
        | some dir =>
          match args with
          | [] => none
          | arg :: args =>
            (dir.print m arg).bind fun out =>
              (format m text args).map fun p =>
                ⟨out ++ p.out, p.args, dir.reads arg out ++ p.reads⟩

/-- Induction over a format by what the formatters take in a round. -/
@[elab_as_elim]
theorem format_induction {motive : List UInt8 → Prop} (nil : motive [])
    (char : ∀ b text, b ≠ 0x25 → motive text → motive (b :: text)) (last : motive [0x25])
    (directive : ∀ b text, motive text → motive (0x25 :: b :: text)) : ∀ text, motive text
  | [] => nil
  | [b] => by
    by_cases hb : b = 0x25
    · rw [hb]
      exact last
    · exact char b [] hb nil
  | b :: b' :: text => by
    by_cases hb : b = 0x25
    · rw [hb]
      exact directive b' text (format_induction nil char last directive text)
    · exact char b (b' :: text) hb (format_induction nil char last directive (b' :: text))

section
variable {m : Memory} {text : List UInt8} {args : List Nat} {b : UInt8} {p : Printed} {arg : Nat}

/-- A format is open at its end if it is so after an ordinary character, -/
theorem openPercent_char (hb : b ≠ 0x25) : openPercent (b :: text) = openPercent text := by
  cases text with
  | nil => simp [openPercent, hb]
  | cons b' text => rw [openPercent, if_pos hb]

/-- or after a directive. -/
theorem openPercent_directive : openPercent (0x25 :: b :: text) = openPercent text := by
  rw [openPercent, if_neg (by decide)]

/-- An ordinary character is put out. -/
theorem format_char (hb : b ≠ 0x25) :
    format m (b :: text) args = (format m text args).map fun p => { p with out := b :: p.out } := by
  cases text with
  | nil => simp [format, hb]
  | cons b' text => rw [format, if_pos hb]

/-- A `%` and a byte that is no directive are skipped. -/
theorem format_unknown (hb : Directive.ofByte b = none) :
    format m (0x25 :: b :: text) args = format m text args := by
  rw [format, if_neg (by decide)]
  simp only [hb]

/-- A directive takes an argument and puts out what it stands for. -/
theorem format_directive {dir : Directive} (hb : Directive.ofByte b = some dir) :
    format m (0x25 :: b :: text) (arg :: args) =
      (dir.print m arg).bind fun out =>
        (format m text args).map fun p => ⟨out ++ p.out, p.args, dir.reads arg out ++ p.reads⟩ := by
  rw [format, if_neg (by decide)]
  simp only [hb]

/-- There has to be an argument for it. -/
theorem format_missing {dir : Directive} (hb : Directive.ofByte b = some dir) :
    format m (0x25 :: b :: text) [] = none := by
  rw [format, if_neg (by decide)]
  simp only [hb]

/-- What a known directive at the head of a format makes of its arguments. -/
theorem format_directive_inv {dir : Directive} (hb : Directive.ofByte b = some dir)
    (h : format m (0x25 :: b :: text) args = some p) : ∃ arg args' out p',
    args = arg :: args' ∧ dir.print m arg = some out ∧ format m text args' = some p' ∧
    p = ⟨out ++ p'.out, p'.args, dir.reads arg out ++ p'.reads⟩ := by
  cases args with
  | nil =>
    rw [format_missing hb] at h
    cases h
  | cons arg args' =>
    rw [format_directive hb, Option.bind_eq_some_iff] at h
    obtain ⟨out, hout, h⟩ := h
    rw [Option.map_eq_some_iff] at h
    obtain ⟨p', hp', hp⟩ := h
    exact ⟨arg, args', out, p', rfl, hout, hp', hp.symm⟩

/-- The table of the list model of `printk_mp_raw` has the directives. -/
theorem directives_find? (b : UInt8) : directives.find? (fun x => x.1 == b) =
    (Directive.ofByte b).map fun dir => (dir.byte, fun m arg => dir.print m arg) := by
  have htable : directives =
      Directive.all.map fun dir => (dir.byte, fun m arg => dir.print m arg) := rfl
  rw [htable, List.find?_map]
  rfl

/-- **The list model** of `printk_mp_raw` gives the characters of the format, and gives up where the
format ends in an open `%`. -/
theorem printkMpRaw_eq_format (m : Memory) (text : List UInt8) (args : List Nat) :
    printkMpRaw m text args =
      if openPercent text then none else (format m text args).map Printed.out := by
  induction text using format_induction generalizing args with
  | nil => rfl
  | char b text hb ih =>
    rw [printkMpRaw_cons hb, ih, openPercent_char hb, format_char hb]
    split
    · rfl
    · rw [Option.map_map, Option.map_map]
      rfl
  | last => rfl
  | directive b text ih =>
    rw [printkMpRaw, if_neg (by decide), directives_find?, openPercent_directive]
    cases hb : Directive.ofByte b with
    | none => rw [Option.map_none, format_unknown hb, ih]
    | some dir =>
      cases args with
      | nil => simp [format_missing hb]
      | cons arg args =>
        rw [Option.map_some, format_directive hb]
        dsimp only
        rw [ih]
        cases dir.print m arg with
        | none => simp
        | some out =>
          split
          · rfl
          · rw [Option.bind_some, Option.bind_some, Option.map_map, Option.map_map]
            rfl

end

/-- The bytes of a format at `fmt`, none of them 0, and the NUL behind them. -/
structure FormatAt (m : Memory) (fmt : Nat) (text : List UInt8) : Prop where
  bytes : m.bytes fmt text.length = text
  nonzero : ∀ b ∈ text, b ≠ 0
  nul : m (fmt + text.length) = 0

/-- The format in memory begins with its first byte, which is not NUL, -/
theorem FormatAt.head {m : Memory} {fmt : Nat} {b : UInt8} {text : List UInt8}
    (h : FormatAt m fmt (b :: text)) : m fmt = b ∧ b ≠ 0 :=
  ⟨(List.cons.inj h.bytes).1, h.nonzero b List.mem_cons_self⟩

/-- and goes on with the others. -/
theorem FormatAt.tail {m : Memory} {fmt : Nat} {b : UInt8} {text : List UInt8}
    (h : FormatAt m fmt (b :: text)) : FormatAt m (fmt + 1) text := by
  refine ⟨(List.cons.inj h.bytes).2, fun c hc => h.nonzero c (List.mem_cons_of_mem _ hc), ?_⟩
  rw [← h.nul, List.length_cons]
  congr 1
  omega

/-! ## Formatters -/

/-- The functions of a formatter that its proofs are about: how it reads memory, how it puts out a
character, the body of its main loop and the loop. -/
structure Formatter (σ : Type*) where
  load : σ → Nat → UInt8
  put : σ → UInt8 → σ
  body : Formatting σ → Option (Formatting σ)
  loop : Nat → Formatting σ → Option (Formatting σ)

/-- `printk_mp_raw`. -/
def printkFormatter : Formatter SerialSink where
  load s a := s.mem a
  put := SerialSink.writeSerial
  body := printkBody
  loop := printkLoop

/-- `sprintf_raw` with the buffer at `buff`. -/
def sprintfFormatter (buff : Nat) : Formatter BufferSink where
  load s a := s.mem a
  put := BufferSink.store buff
  body := sprintfBody buff
  loop := sprintfLoop buff

namespace Formatter

section
variable {σ : Type*}

/-- Characters go out one after the other. -/
def putAll (F : Formatter σ) (s : σ) (bytes : List UInt8) : σ := bytes.foldl F.put s

/-- Whatever the next `n` characters are, the bytes of `m` at the addresses `R` are kept. -/
def Stable (F : Formatter σ) (m : Memory) (R : Nat → Prop) (s : σ) (n : Nat) : Prop :=
  ∀ bytes : List UInt8, bytes.length ≤ n → ∀ a, R a → F.load (F.putAll s bytes) a = m a

/-- What a round of the main loop does. -/
structure Rounds (F : Formatter σ) : Prop where
  /-- The loop ends on a NUL, -/
  nul : ∀ {fuel t}, F.load t.sink t.ptr = 0 →
    F.loop (fuel + 1) t = some { t with reads := t.reads ++ [t.ptr] }
  /-- runs its body on any other byte, -/
  round : ∀ {fuel t}, F.load t.sink t.ptr ≠ 0 → F.loop (fuel + 1) t = (F.body t).bind (F.loop fuel)
  /-- and has no result when the rounds are used up. -/
  zero : ∀ t, F.loop 0 t = none
  /-- A character is put out. -/
  char : ∀ {fmt args s old b}, F.load s fmt = b → b ≠ 0x25 →
    F.body ⟨fmt, args, s, old⟩ = some ⟨fmt + 1, args, F.put s b, old ++ [fmt]⟩
  /-- A `%` in front of a byte that is no directive is passed over together with it, be it the
  NUL. -/
  unknown : ∀ {fmt args s old}, F.load s fmt = 0x25 → Directive.ofByte (F.load s (fmt + 1)) = none →
    F.body ⟨fmt, args, s, old⟩ = some ⟨fmt + 2, args, s, old ++ [fmt, fmt + 1]⟩
  /-- A directive takes its argument and puts out what it stands for. -/
  known : ∀ {m R fmt arg args s old dir out}, F.load s fmt = 0x25 →
    Directive.ofByte (F.load s (fmt + 1)) = some dir → dir.print m arg = some out →
    Stable F m R s out.length → (∀ a ∈ dir.reads arg out, R a) →
    F.body ⟨fmt, arg :: args, s, old⟩ = some ⟨fmt + 2, args, F.putAll s out, old ++ [fmt, fmt + 1]⟩
  /-- A round reads the byte under the cursor. -/
  reads : ∀ {t t'}, F.body t = some t' → ∃ reads, t'.reads = t.reads ++ t.ptr :: reads

variable {F : Formatter σ} {m : Memory} {R : Nat → Prop} {s : σ} {n k fuel : Nat}
  {bytes : List UInt8} {t t' : Formatting σ}

/-- What is read is still as it was. -/
theorem Stable.load (h : Stable F m R s n) {a : Nat} (ha : R a) : F.load s a = m a :=
  h [] (Nat.zero_le n) a ha

/-- Bytes are put out one after the other. -/
theorem putAll_append (s : σ) (bytes bytes' : List UInt8) :
    F.putAll s (bytes ++ bytes') = F.putAll (F.putAll s bytes) bytes' := List.foldl_append

/-- It stays so while there is room for the bytes. -/
theorem Stable.putAll (h : Stable F m R s n) (hk : bytes.length + k ≤ n) :
    Stable F m R (F.putAll s bytes) k := by
  intro bytes' hlen a ha
  rw [← putAll_append]
  refine h _ ?_ a ha
  rw [List.length_append]
  omega

/-- **Strings.** A loop that puts out the bytes in front of a NUL puts out the string that is in
`m`. -/
theorem stringLoop_eq (loop : Nat → σ → Nat → Option σ)
    (hloop : ∀ n s p, loop (n + 1) s p =
      if F.load s p = 0 then some s else loop n (F.put s (F.load s p)) (p + 1))
    {stringPtr : Nat} {out : List UInt8} (h : stringAt m n stringPtr = some out)
    (hs : Stable F m R s out.length) (hR : ∀ a ∈ Directive.s.reads stringPtr out, R a) :
    loop n s stringPtr = some (F.putAll s out) := by
  induction n generalizing s stringPtr out with
  | zero => cases h
  | succ n ih =>
    have hhead : stringPtr ∈ Directive.s.reads stringPtr out := by
      rw [Directive.reads, List.mem_range'_1]
      omega
    rw [stringAt] at h
    rw [hloop, hs.load (hR stringPtr hhead)]
    split at h
    · next hzero =>
      cases h
      exact if_pos hzero
    · next hne =>
      rw [Option.map_eq_some_iff] at h
      obtain ⟨rest, hrest, rfl⟩ := h
      have hone : [m stringPtr].length + rest.length ≤ (m stringPtr :: rest).length := by
        rw [List.length_singleton, List.length_cons]
        omega
      rw [if_neg hne]
      refine ih hrest (hs.putAll hone) fun a ha => hR a ?_
      rw [Directive.reads, List.mem_range'_1] at ha ⊢
      rw [List.length_cons]
      omega

end

end Formatter

/-! ### The rounds of `printk_mp_raw` -/

section
variable {m : Memory} {R : Nat → Prop} {s : SerialSink} {arg : Nat} {args : List Nat} {b : UInt8}
  {out : List UInt8} {dir : Directive} {t t' : Formatting SerialSink}

/-- The cases `'d'` and `'q'` put out the sign and the digits. -/
theorem writeSigned_eq (bits : Nat) (s : SerialSink) (arg : Nat) :
    s.writeSigned bits arg = printkFormatter.putAll s (resolveSigned bits arg) := by
  simp only [SerialSink.writeSigned, resolveSigned]
  split
  · rfl
  · rfl

/-- A byte that is no directive takes the default case. -/
theorem printkSwitch_unknown (hb : Directive.ofByte b = none) :
    printkSwitch s args b = some (s, args) := by
  have hne := Directive.byte_ne_of_ofByte hb
  rw [printkSwitch, if_neg (show b ≠ 0x73 from hne .s), if_neg (show b ≠ 0x63 from hne .c),
    if_neg (show b ≠ 0x64 from hne .d), if_neg (show b ≠ 0x71 from hne .q),
    if_neg (show b ≠ 0x78 from hne .x), if_neg (show b ≠ 0x58 from hne .X)]

/-- **The switch of `printk_mp_raw`** puts out what a directive stands for. -/
theorem printkSwitch_known (h : dir.print m arg = some out)
    (hs : printkFormatter.Stable m R s out.length) (hR : ∀ a ∈ dir.reads arg out, R a) :
    printkSwitch s (arg :: args) dir.byte = some (printkFormatter.putAll s out, args) := by
  cases dir with
  | s =>
    have hstring : s.writeString (2 ^ 64) arg = some (printkFormatter.putAll s out) :=
      Formatter.stringLoop_eq (F := printkFormatter)
        (fun n s stringPtr => s.writeString n stringPtr) (fun _ _ _ => rfl) h hs hR
    change ((s.writeString (2 ^ 64) arg).bind fun s => some (s, args)) = _
    rw [hstring]
    rfl
  | c =>
    rw [← Option.some.inj h]
    rfl
  | d =>
    rw [← Option.some.inj h, ← writeSigned_eq]
    rfl
  | q =>
    rw [← Option.some.inj h, ← writeSigned_eq]
    rfl
  | x =>
    rw [← Option.some.inj h]
    rfl
  | X =>
    rw [← Option.some.inj h]
    rfl

/-- What the rounds of `printk_mp_raw` do. -/
theorem printkRounds : printkFormatter.Rounds where
  nul hzero := if_pos hzero
  round hne := if_neg hne
  zero _ := rfl
  char := by
    intro fmt args s old b hload hb
    subst hload
    exact if_pos hb
  unknown := by
    intro fmt args s old hload hb
    change s.mem fmt = 0x25 at hload
    change Directive.ofByte (s.mem (fmt + 1)) = none at hb
    change printkBody _ = _
    simp only [printkBody, hload]
    rw [if_neg (by decide), printkSwitch_unknown hb]
    rfl
  known := by
    intro m R fmt arg args s old dir out hload hb hout hs hR
    change s.mem fmt = 0x25 at hload
    have hbyte : s.mem (fmt + 1) = dir.byte := Directive.byte_of_ofByte hb
    change printkBody _ = _
    simp only [printkBody, hload, hbyte]
    rw [if_neg (by decide), printkSwitch_known hout hs hR]
    rfl
  reads := by
    intro t t' h
    change printkBody t = some t' at h
    simp only [printkBody] at h
    split at h
    · cases h
      exact ⟨[], rfl⟩
    · obtain ⟨r, -, rfl⟩ := Option.map_eq_some_iff.1 h
      exact ⟨[t.ptr + 1], rfl⟩

end

/-! ### The rounds of `sprintf_raw` -/

section
variable {m : Memory} {R : Nat → Prop} {buff ptr : Nat} {s : BufferSink} {arg : Nat}
  {args : List Nat} {out : List UInt8} {dir : Directive} {t t' : Formatting BufferSink}

/-- The digits come off the stack in reverse. -/
theorem popStack_resolveStack (buff : Nat) (s : BufferSink) (base : Nat) (digit : Nat → UInt8)
    (qword : Nat) : popStack buff s (resolveStack base digit 128 qword) =
      (sprintfFormatter buff).putAll s (resolveDigits base digit qword) := by
  rw [popStack, resolveDigits]
  cases hstack : resolveStack base digit 128 qword with
  | nil => rfl
  | cons d ds =>
    rw [if_neg (List.cons_ne_nil d ds), Formatter.putAll, List.foldl_reverse]
    rfl

/-- `resolve_decimal` stores what `resolve_qword` prints. -/
theorem resolveDecimal_eq (buff : Nat) (s : BufferSink) (qword : Nat) :
    resolveDecimal buff s qword = (sprintfFormatter buff).putAll s (resolveQword qword) :=
  popStack_resolveStack buff s 10 _ qword

/-- `resolve_hexadecimal` stores what `resolve_hex_qword` prints. -/
theorem resolveHexadecimal_eq (buff : Nat) (s : BufferSink) (qword : Nat) (isLowercase : Bool) :
    resolveHexadecimal buff s qword isLowercase =
      (sprintfFormatter buff).putAll s (resolveHexQword qword isLowercase) :=
  popStack_resolveStack buff s 16 _ qword

/-- The cases `'d'` and `'q'` store the sign and the digits. -/
theorem storeSigned_eq (buff bits : Nat) (s : BufferSink) (arg : Nat) :
    s.storeSigned buff bits arg = (sprintfFormatter buff).putAll s (resolveSigned bits arg) := by
  simp only [BufferSink.storeSigned, resolveSigned, resolveDecimal_eq]
  split
  · rfl
  · rfl

/-- A byte that is no directive takes the default case. -/
theorem sprintfSwitch_unknown (hb : Directive.ofByte (s.mem ptr) = none) :
    sprintfSwitch buff s args ptr = some (s, args) := by
  have hne := Directive.byte_ne_of_ofByte hb
  have hhex : ¬ (s.mem ptr = 0x78 ∨ s.mem ptr = 0x58) := not_or.2 ⟨hne .x, hne .X⟩
  rw [sprintfSwitch, if_neg (show s.mem ptr ≠ 0x73 from hne .s),
    if_neg (show s.mem ptr ≠ 0x63 from hne .c), if_neg (show s.mem ptr ≠ 0x64 from hne .d),
    if_neg (show s.mem ptr ≠ 0x71 from hne .q), if_neg hhex]

/-- **The switch of `sprintf_raw`** stores what a directive stands for; the byte that it looks at
again tells `%x` from `%X`. -/
theorem sprintfSwitch_known (hb : s.mem ptr = dir.byte) (h : dir.print m arg = some out)
    (hs : (sprintfFormatter buff).Stable m R s out.length) (hR : ∀ a ∈ dir.reads arg out, R a) :
    sprintfSwitch buff s (arg :: args) ptr = some ((sprintfFormatter buff).putAll s out, args) := by
  rw [sprintfSwitch, hb]
  cases dir with
  | s =>
    have hstring : s.storeString buff (2 ^ 64) arg = some ((sprintfFormatter buff).putAll s out) :=
      Formatter.stringLoop_eq (F := sprintfFormatter buff)
        (fun n s stringPtr => s.storeString buff n stringPtr) (fun _ _ _ => rfl) h hs hR
    change ((s.storeString buff (2 ^ 64) arg).bind fun s => some (s, args)) = _
    rw [hstring]
    rfl
  | c =>
    rw [← Option.some.inj h]
    rfl
  | d =>
    rw [← Option.some.inj h, ← storeSigned_eq]
    rfl
  | q =>
    rw [← Option.some.inj h, ← storeSigned_eq]
    rfl
  | x =>
    rw [← Option.some.inj h, ← resolveHexadecimal_eq]
    rfl
  | X =>
    rw [← Option.some.inj h, ← resolveHexadecimal_eq]
    rfl

/-- What the rounds of `sprintf_raw` do. -/
theorem sprintfRounds (buff : Nat) : (sprintfFormatter buff).Rounds where
  nul hzero := if_pos hzero
  round hne := if_neg hne
  zero _ := rfl
  char := by
    intro fmt args s old b hload hb
    subst hload
    exact if_pos hb
  unknown := by
    intro fmt args s old hload hb
    change s.mem fmt = 0x25 at hload
    change Directive.ofByte (s.mem (fmt + 1)) = none at hb
    change sprintfBody buff _ = _
    simp only [sprintfBody, hload]
    rw [if_neg (by decide), sprintfSwitch_unknown hb]
    rfl
  known := by
    intro m R fmt arg args s old dir out hload hb hout hs hR
    change s.mem fmt = 0x25 at hload
    have hbyte : s.mem (fmt + 1) = dir.byte := Directive.byte_of_ofByte hb
    change sprintfBody buff _ = _
    simp only [sprintfBody, hload]
    rw [if_neg (by decide), sprintfSwitch_known hbyte hout hs hR]
    rfl
  reads := by
    intro t t' h
    change sprintfBody buff t = some t' at h
    simp only [sprintfBody] at h
    split at h
    · cases h
      exact ⟨[], rfl⟩
    · obtain ⟨r, -, rfl⟩ := Option.map_eq_some_iff.1 h
      exact ⟨[t.ptr + 1], rfl⟩

end

/-! ## The loop follows the meaning -/

/-- The rounds that the main loop takes for a format. -/
def rounds : List UInt8 → Nat
  | [] => 0
  | b :: text =>
    if b ≠ 0x25 then rounds text + 1
    else
      match text with
      | [] => 1
      | _ :: text => rounds text + 1

/-- An ordinary character is a round of the loop, -/
theorem rounds_char {b : UInt8} {text : List UInt8} (hb : b ≠ 0x25) :
    rounds (b :: text) = rounds text + 1 := by
  cases text with
  | nil => simp [rounds, hb]
  | cons b' text => rw [rounds, if_pos hb]

/-- and so is a directive. -/
theorem rounds_directive {b : UInt8} {text : List UInt8} :
    rounds (0x25 :: b :: text) = rounds text + 1 := by
  rw [rounds, if_neg (by decide)]

namespace Formatter.Rounds

section
variable {σ : Type*} {F : Formatter σ} {m : Memory} {R : Nat → Prop} {s : σ} {fuel fmt : Nat}
  {t t' : Formatting σ} {args : List Nat} {b : UInt8} {text : List UInt8} {p : Printed}

/-- A round of the loop. -/
theorem loop_of_body (hF : F.Rounds) (hne : F.load t.sink t.ptr ≠ 0) (hbody : F.body t = some t') :
    F.loop (fuel + 1) t = F.loop fuel t' := by
  rw [hF.round hne, hbody, Option.bind_some]

/-- **The round of a `%`** leaves the rest of the format to be printed. -/
theorem body_directive (hF : F.Rounds) (h : format m (0x25 :: b :: text) args = some p)
    (hload : F.load s fmt = 0x25) (hload' : F.load s (fmt + 1) = b) (hreads : ∀ a ∈ p.reads, R a)
    (hs : Stable F m R s p.out.length) : ∃ args' s' p',
    format m text args' = some p' ∧ p.args = p'.args ∧ F.putAll s p.out = F.putAll s' p'.out ∧
    (∀ a ∈ p'.reads, a ∈ p.reads) ∧ Stable F m R s' p'.out.length ∧ ∀ old,
      F.body ⟨fmt, args, s, old⟩ = some ⟨fmt + 2, args', s', old ++ [fmt, fmt + 1]⟩ := by
  cases hb : Directive.ofByte b with
  | none =>
    rw [format_unknown hb] at h
    exact ⟨args, s, p, h, rfl, rfl, fun a ha => ha, hs, fun old =>
      hF.unknown hload (by rw [hload', hb])⟩
  | some dir =>
    obtain ⟨arg, args', out, p', rfl, hout, hp', rfl⟩ := format_directive_inv hb h
    dsimp only at hs hreads ⊢
    rw [List.length_append] at hs
    refine ⟨args', _, p', hp', rfl, putAll_append s out p'.out,
      fun a ha => List.mem_append_right _ ha, hs.putAll (Nat.le_refl _), fun old => ?_⟩
    exact hF.known hload (by rw [hload', hb]) hout (fun bytes hlen => hs bytes (by omega))
      fun a ha => hreads a (List.mem_append_left _ ha)

/-- **The loop simulates the meaning of the format.** In `rounds text` rounds it reads the bytes of
the format one after the other, puts out the characters of the format and takes its arguments. It
leaves the cursor on the NUL, or behind it if the format ends in an open `%`. -/
theorem loop_format (hF : F.Rounds) (h : format m text args = some p) (hfmt : FormatAt m fmt text)
    (hR : ∀ a, fmt ≤ a → a ≤ fmt + text.length → R a) (hreads : ∀ a ∈ p.reads, R a)
    (hs : Stable F m R s p.out.length) (fuel : Nat) (old : List Nat) :
    F.loop (fuel + rounds text) ⟨fmt, args, s, old⟩ = F.loop fuel
      ⟨fmt + text.length + (openPercent text).toNat, p.args, F.putAll s p.out,
        old ++ List.range' fmt (text.length + (openPercent text).toNat)⟩ := by
  induction text using format_induction generalizing fmt args p s old with
  | nil =>
    cases h
    simp [openPercent, putAll, rounds]
  | char b text hb ih =>
    rw [format_char hb, Option.map_eq_some_iff] at h
    obtain ⟨p, hp, rfl⟩ := h
    dsimp only at hreads hs
    rw [List.length_cons] at hR hs
    have hload : F.load s fmt = b := (hs.load (hR fmt (by omega) (by omega))).trans hfmt.head.1
    have hne : F.load s fmt ≠ 0 := by
      rw [hload]
      exact hfmt.head.2
    have hone : [b].length + p.out.length ≤ p.out.length + 1 := by
      rw [List.length_singleton]
      omega
    have hrest := ih hp hfmt.tail (fun a h₁ h₂ => hR a (by omega) (by omega)) hreads
      (hs.putAll hone) (old ++ [fmt])
    have hlen : text.length + 1 + (openPercent text).toNat =
        text.length + (openPercent text).toNat + 1 := by omega
    rw [rounds_char hb, ← Nat.add_assoc, hF.loop_of_body hne (hF.char hload hb)]
    refine hrest.trans ?_
    rw [openPercent_char hb, ← putAll_append, List.length_cons, hlen, List.range'_succ,
      List.append_assoc, Nat.add_right_comm fmt 1, ← Nat.add_assoc]
    rfl
  | last =>
    cases h
    have hload : F.load s fmt = 0x25 :=
      (hs.load (hR fmt (by omega) (by simp))).trans hfmt.head.1
    have hload' : F.load s (fmt + 1) = 0 :=
      (hs.load (hR (fmt + 1) (by omega) (by simp))).trans hfmt.nul
    exact hF.loop_of_body (by rw [hload]; decide) (hF.unknown hload (by rw [hload']; decide))
  | directive b text ih =>
    rw [List.length_cons, List.length_cons] at hR
    have hload : F.load s fmt = 0x25 :=
      (hs.load (hR fmt (by omega) (by omega))).trans hfmt.head.1
    have hload' : F.load s (fmt + 1) = b :=
      (hs.load (hR (fmt + 1) (by omega) (by omega))).trans hfmt.tail.head.1
    obtain ⟨args', s', p', hp', hargs, hout, hsub, hs', hbody⟩ :=
      hF.body_directive h hload hload' hreads hs
    have hrest := ih hp' hfmt.tail.tail (fun a h₁ h₂ => hR a (by omega) (by omega))
      (fun a ha => hreads a (hsub a ha)) hs' (old ++ [fmt, fmt + 1])
    have hlen : text.length + 1 + 1 + (openPercent text).toNat =
        text.length + (openPercent text).toNat + 1 + 1 := by omega
    have hptr : fmt + 1 + 1 + text.length + (openPercent text).toNat =
        fmt + (text.length + 1 + 1) + (openPercent text).toNat := by omega
    rw [rounds_directive, ← Nat.add_assoc, hF.loop_of_body (by rw [hload]; decide) (hbody old)]
    refine hrest.trans ?_
    rw [openPercent_directive, hargs, hout, List.length_cons, List.length_cons, hlen,
      List.range'_succ, List.range'_succ, List.append_assoc, hptr]
    rfl

/-! ## Where the loop ends -/

/-- More fuel does not change a loop that ends. -/
theorem loop_add (hF : F.Rounds) (h : F.loop fuel t = some t') (k : Nat) :
    F.loop (fuel + k) t = some t' := by
  induction fuel generalizing t with
  | zero =>
    rw [hF.zero] at h
    cases h
  | succ fuel ih =>
    rw [Nat.add_right_comm]
    by_cases hzero : F.load t.sink t.ptr = 0
    · rw [hF.nul hzero] at h ⊢
      exact h
    · rw [hF.round hzero, Option.bind_eq_some_iff] at h
      obtain ⟨t₁, hbody, hloop⟩ := h
      rw [hF.round hzero, hbody, Option.bind_some, ih hloop]

/-- The loop reads the byte under the cursor. -/
theorem loop_reads (hF : F.Rounds) (h : F.loop fuel t = some t') :
    ∃ reads, t'.reads = t.reads ++ t.ptr :: reads := by
  induction fuel generalizing t with
  | zero =>
    rw [hF.zero] at h
    cases h
  | succ fuel ih =>
    by_cases hzero : F.load t.sink t.ptr = 0
    · rw [hF.nul hzero] at h
      cases h
      exact ⟨[], rfl⟩
    · rw [hF.round hzero, Option.bind_eq_some_iff] at h
      obtain ⟨t₁, hbody, hloop⟩ := h
      obtain ⟨reads, hreads⟩ := ih hloop
      obtain ⟨reads₁, hreads₁⟩ := hF.reads hbody
      refine ⟨reads₁ ++ t₁.ptr :: reads, ?_⟩
      rw [hreads, hreads₁, List.append_assoc]
      rfl

end

end Formatter.Rounds

/-- The formatter `run` ends on the NUL at `nul` and reads no byte of the format behind it. -/
def EndsAt {σ : Type*} (nul : Nat) (run : Nat → Option (Formatting σ)) : Prop :=
  ∃ fuel t, run fuel = some t ∧ t.ptr = nul ∧ ∀ a ∈ t.reads, a ≤ nul

/-- The addresses that a call reads: the format with its NUL, and strings. -/
def CallReads (fmt : Nat) (text : List UInt8) (p : Printed) (a : Nat) : Prop :=
  (fmt ≤ a ∧ a ≤ fmt + text.length) ∨ a ∈ p.reads

instance (fmt : Nat) (text : List UInt8) (p : Printed) (a : Nat) :
    Decidable (CallReads fmt text p a) :=
  inferInstanceAs (Decidable (_ ∨ _))

namespace Formatter.Rounds

section
variable {σ : Type*} {F : Formatter σ} {m : Memory} {s : σ} {fmt : Nat} {text : List UInt8}
  {args : List Nat} {p : Printed}

/-- A format that does not end in an open `%` is printed, and the loop ends on its NUL. -/
theorem loop_of_closed (hF : F.Rounds) (h : format m text args = some p)
    (hfmt : FormatAt m fmt text) (hs : Stable F m (CallReads fmt text p) s p.out.length)
    (hopen : openPercent text = false) :
    F.loop (1 + rounds text) ⟨fmt, args, s, []⟩ = some
      ⟨fmt + text.length, p.args, F.putAll s p.out, List.range' fmt (text.length + 1)⟩ := by
  have hnul : F.load (F.putAll s p.out) (fmt + text.length) = 0 :=
    (hs p.out (Nat.le_refl _) _ (.inl ⟨by omega, by omega⟩)).trans hfmt.nul
  rw [hF.loop_format h hfmt (fun a h₁ h₂ => .inl ⟨h₁, h₂⟩) (fun a ha => .inr ha) hs, hopen,
    Bool.toNat_false, Nat.add_zero, Nat.add_zero, hF.nul hnul, List.range'_concat, Nat.one_mul,
    List.nil_append]

/-- **Where the loop ends.** It ends on the NUL exactly if the format does not end in an open
`%`. -/
theorem endsAt_iff (hF : F.Rounds) (h : format m text args = some p) (hfmt : FormatAt m fmt text)
    (hs : Stable F m (CallReads fmt text p) s p.out.length) :
    EndsAt (fmt + text.length) (fun fuel => F.loop fuel ⟨fmt, args, s, []⟩) ↔
      openPercent text = false := by
  constructor
  · rintro ⟨fuel, t, hloop, -, hle⟩
    by_contra hopen
    rw [Bool.not_eq_false] at hopen
    have hrun := hF.loop_format h hfmt (fun a h₁ h₂ => .inl ⟨h₁, h₂⟩)
      (fun a ha => .inr ha) hs fuel []
    -- the cursor is behind the NUL, and the loop reads the byte there
    have hbehind := hrun.symm.trans (hF.loop_add hloop (rounds text))
    rw [hopen] at hbehind
    obtain ⟨reads', hreads⟩ := hF.loop_reads hbehind
    dsimp only at hreads
    have hread := hle (fmt + text.length + Bool.toNat true) (by rw [hreads]; simp)
    rw [Bool.toNat_true] at hread
    omega
  · intro hopen
    refine ⟨_, _, hF.loop_of_closed h hfmt hs hopen, rfl, fun a ha => ?_⟩
    rw [List.mem_range'_1] at ha
    omega

end

end Formatter.Rounds

/-! ## Where the characters go -/

section
variable {m : Memory} {R : Nat → Prop} {buff : Nat}

/-- `printk_mp_raw` appends to what was printed. -/
theorem printkFormatter_putAll (s : SerialSink) (bytes : List UInt8) :
    printkFormatter.putAll s bytes = ⟨s.mem, s.out ++ bytes⟩ := by
  induction bytes generalizing s with
  | nil => rw [List.append_nil, Formatter.putAll, List.foldl_nil]
  | cons b bytes ih =>
    rw [Formatter.putAll, List.foldl_cons, ← Formatter.putAll, ih]
    simp only [printkFormatter, SerialSink.writeSerial, List.append_assoc, List.singleton_append]

/-- The serial port is not memory. -/
theorem printkFormatter_stable (m : Memory) (R : Nat → Prop) (n : Nat) :
    Formatter.Stable printkFormatter m R ⟨m, []⟩ n := by
  intro bytes _ a _
  rw [printkFormatter_putAll]
  rfl

/-- `sprintf_raw` stores at its index. -/
theorem sprintfFormatter_putAll_snoc (s : BufferSink) (bytes : List UInt8) (b : UInt8) :
    (sprintfFormatter buff).putAll s (bytes ++ [b]) =
      { mem := ((sprintfFormatter buff).putAll s bytes).mem.write
          (bufferAddr buff ((sprintfFormatter buff).putAll s bytes).iptr) 1 b.toNat
        iptr := int32 (((sprintfFormatter buff).putAll s bytes).iptr + 1)
        stored := ((sprintfFormatter buff).putAll s bytes).stored ++ [b] } := List.foldl_append

/-- The buffer after some characters. -/
theorem sprintfFormatter_putAll (m : Memory) (buff : Nat) (bytes : List UInt8) :
    ((sprintfFormatter buff).putAll ⟨m, 0, []⟩ bytes).iptr = int32 bytes.length ∧
    ((sprintfFormatter buff).putAll ⟨m, 0, []⟩ bytes).stored = bytes := by
  induction bytes using List.reverseRecOn with
  | nil => exact ⟨rfl, rfl⟩
  | append_singleton bytes b ih =>
    obtain ⟨hiptr, hstored⟩ := ih
    rw [sprintfFormatter_putAll_snoc, hiptr, hstored, List.length_append, List.length_singleton]
    refine ⟨?_, rfl⟩
    dsimp only
    rw [int32, int32, int32, Int.bmod_add_bmod, Int.natCast_add]
    rfl

/-- Only the bytes of the buffer change. -/
theorem sprintfFormatter_putAll_of_ne {bytes : List UInt8} {a : Nat}
    (h : ∀ j < bytes.length, bufferAddr buff (int32 j) ≠ a) :
    ((sprintfFormatter buff).putAll ⟨m, 0, []⟩ bytes).mem a = m a := by
  induction bytes using List.reverseRecOn with
  | nil => rfl
  | append_singleton bytes b ih =>
    rw [List.length_append, List.length_singleton] at h
    have hne := h bytes.length (by omega)
    rw [sprintfFormatter_putAll_snoc, (sprintfFormatter_putAll m buff bytes).1]
    dsimp only
    rw [Memory.write_apply_of_not_mem (by omega), ih fun j hj => h j (by omega)]

/-- A buffer apart from what is read is stable. -/
theorem sprintfFormatter_stable {n : Nat} (h : ∀ j < n, ¬ R (bufferAddr buff (int32 j))) :
    Formatter.Stable (sprintfFormatter buff) m R ⟨m, 0, []⟩ n := by
  intro bytes hlen a ha
  refine sprintfFormatter_putAll_of_ne fun j hj hja => h j (by omega) ?_
  rw [hja]
  exact ha

/-- The index is an `int`: it counts below 2 GiB. -/
theorem bufferAddr_eq {j : Nat} (hj : j < 2 ^ 31) (hb : buff + j < 2 ^ 64) :
    bufferAddr buff (int32 j) = buff + j := by
  rw [bufferAddr, int32_eq (by omega) (by omega), toUInt64_eq (by omega) (by omega)]
  omega

/-- The characters are in the buffer, if the index and the addresses do not wrap around. -/
theorem sprintfFormatter_putAll_bytes {bytes : List UInt8} (hlen : bytes.length ≤ 2 ^ 31)
    (hb : buff + bytes.length ≤ 2 ^ 64) :
    ((sprintfFormatter buff).putAll ⟨m, 0, []⟩ bytes).mem.bytes buff bytes.length = bytes := by
  induction bytes using List.reverseRecOn with
  | nil => rfl
  | append_singleton bytes b ih =>
    rw [List.length_append, List.length_singleton] at hlen hb ⊢
    have ih := ih (by omega) (by omega)
    have hput : ((sprintfFormatter buff).putAll ⟨m, 0, []⟩ (bytes ++ [b])).mem =
        ((sprintfFormatter buff).putAll ⟨m, 0, []⟩ bytes).mem.write
          (buff + bytes.length) 1 b.toNat := by
      rw [sprintfFormatter_putAll_snoc, (sprintfFormatter_putAll m buff bytes).1,
        bufferAddr_eq (by omega) (by omega)]
    rw [hput, Memory.bytes_succ, Memory.bytes_congr (Memory.write_agreeOn (by omega)), ih,
      Memory.write_apply_of_mem (by omega) (by omega), Nat.sub_self, Nat.pow_zero, Nat.div_one,
      UInt8.ofNat_toNat]

end

/-! ## The three formatters -/

/-- The format `n=%d%%%z%s`. -/
def sampleFormat : List UInt8 := literal ['n', '=', '%', 'd', '%', '%', '%', 'z', '%', 's']

/-- A memory with the format at 0 and the string `ok` at 0x40. -/
def sampleFormatMemory : Memory := fun a =>
  ((sampleFormat ++ List.replicate 54 0 ++ literal ['o', 'k'])[a]?).getD 0

/-- The format of the sample is in its memory. -/
theorem formatAt_sample : FormatAt sampleFormatMemory 0 sampleFormat :=
  ⟨by decide +kernel, by decide +kernel, by decide +kernel⟩

/-- What the format stands for, for the arguments -7 and the string. -/
theorem format_sample : format sampleFormatMemory sampleFormat [2 ^ 64 - 7, 0x40] =
    some ⟨literal ['n', '=', '-', '7', 'o', 'k'], [], [0x40, 0x41, 0x42]⟩ := by
  decide +kernel

section
variable {m : Memory} {fmt : Nat} {text : List UInt8} {args : List Nat} {p : Printed}

/-- **Where a format ends.** On a format for which all arguments are there, each of the three
formatters ends on the terminating NUL and reads nothing behind it exactly if the format does not
end in an open `%`; for `sprintf_raw` the buffer is apart from what is read. The memory behind the
format does not matter. -/
theorem formatters_end_iff (hfmt : FormatAt m fmt text) (hargs : format m text args = some p) :
    (EndsAt (fmt + text.length) (printkMpRawAt · m fmt args) ↔ openPercent text = false) ∧
    (EndsAt (fmt + text.length) (guestPrintkMpRawAt · m fmt args) ↔ openPercent text = false) ∧
    ∀ buff, (∀ j < p.out.length, ¬ CallReads fmt text p (bufferAddr buff (int32 j))) →
      (EndsAt (fmt + text.length) (sprintfRawAt · m buff fmt args) ↔ openPercent text = false) := by
  have hserial := printkRounds.endsAt_iff hargs hfmt
    (printkFormatter_stable m (CallReads fmt text p) _)
  refine ⟨hserial, hserial, fun buff hapart => ?_⟩
  -- the NUL that `sprintf_raw` stores in the end changes neither the cursor nor what was read
  rw [← (sprintfRounds buff).endsAt_iff hargs hfmt (sprintfFormatter_stable hapart)]
  constructor
  · rintro ⟨fuel, t, hrun, hptr, hle⟩
    obtain ⟨t, hloop, rfl⟩ := Option.map_eq_some_iff.1 hrun
    exact ⟨fuel, t, hloop, hptr, hle⟩
  · rintro ⟨fuel, t, hloop, hptr, hle⟩
    exact ⟨fuel, _, Option.map_eq_some_iff.2 ⟨t, hloop, rfl⟩, hptr, hle⟩

end

/-- The sample format with a buffer at 0x1000. -/
theorem formatters_end_iff_sample :
    EndsAt (0 + sampleFormat.length) (printkMpRawAt · sampleFormatMemory 0 [2 ^ 64 - 7, 0x40]) ∧
    EndsAt (0 + sampleFormat.length)
      (sprintfRawAt · sampleFormatMemory 0x1000 0 [2 ^ 64 - 7, 0x40]) := by
  obtain ⟨hprintk, -, hsprintf⟩ := formatters_end_iff formatAt_sample format_sample
  exact ⟨hprintk.2 (by decide), (hsprintf 0x1000 (by decide)).2 (by decide)⟩

/-- The format `%`, with the byte `A` and another 0 behind its NUL. -/
def openFormatMemory : Memory := fun a => ([0x25, 0, 0x41, 0][a]?).getD 0

/-- On the format `%` all three formatters pass over the NUL, read the two bytes behind it and print
the `A`. -/
theorem open_percent_reads_on : FormatAt openFormatMemory 0 [0x25] ∧
    (∃ t, printkMpRawAt 3 openFormatMemory 0 [] = some t ∧ t.ptr = 3 ∧ 2 ∈ t.reads ∧
      t.sink.out = [0x41]) ∧
    (∃ t, guestPrintkMpRawAt 3 openFormatMemory 0 [] = some t ∧ t.ptr = 3 ∧ 2 ∈ t.reads ∧
      t.sink.out = [0x41]) ∧
    ∃ t, sprintfRawAt 3 openFormatMemory 0x1000 0 [] = some t ∧ t.ptr = 3 ∧ 2 ∈ t.reads ∧
      t.sink.stored = [0x41] := by
  refine ⟨⟨by decide +kernel, by decide +kernel, by decide +kernel⟩, ⟨_, rfl, ?_⟩, ⟨_, rfl, ?_⟩,
    ⟨_, rfl, ?_⟩⟩
  · decide
  · decide
  · decide

section
variable {m : Memory} {fmt : Nat} {text : List UInt8} {args : List Nat} {p : Printed}

/-- **The formatters agree.** For a format that does not end in an open `%`, with all its arguments
there and a buffer apart from what is read, both formatters return after the same number of rounds.
They have read the same bytes of the format in the same order, `sprintf_raw` has stored the bytes
that `printk_mp_raw` has passed to `write_serial`, and both leave the same arguments. If the buffer
is where an `int` can index it, it holds these bytes and a NUL in the end, and no other memory has
changed. -/
theorem formatters_agree (hfmt : FormatAt m fmt text) (hopen : openPercent text = false)
    (hargs : format m text args = some p) (buff : Nat)
    (hapart : ∀ j < p.out.length, ¬ CallReads fmt text p (bufferAddr buff (int32 j))) :
    ∃ fuel t t', printkMpRawAt fuel m fmt args = some t ∧
      sprintfRawAt fuel m buff fmt args = some t' ∧
      t'.ptr = t.ptr ∧ t'.reads = t.reads ∧ t'.sink.stored = t.sink.out ∧ t'.args = t.args ∧
      (t.sink.out.length < 2 ^ 31 → buff + t.sink.out.length < 2 ^ 64 →
        t'.sink.mem.bytes buff (t.sink.out.length + 1) = t.sink.out ++ [0] ∧
        ∀ a, a < buff ∨ buff + t.sink.out.length < a → t'.sink.mem a = m a) := by
  have hprintk := printkRounds.loop_of_closed hargs hfmt
    (printkFormatter_stable m (CallReads fmt text p) _) hopen
  have hsprintf := (sprintfRounds buff).loop_of_closed hargs hfmt (sprintfFormatter_stable hapart)
    hopen
  have hout : (printkFormatter.putAll ⟨m, []⟩ p.out).out = p.out := by
    rw [printkFormatter_putAll]
    rfl
  refine ⟨1 + rounds text, _, _, hprintk, congrArg (Option.map _) hsprintf, rfl, rfl, ?_, rfl, ?_⟩
  · rw [hout]
    exact (sprintfFormatter_putAll m buff p.out).2
  · intro hlen hbuff
    rw [hout] at hlen hbuff ⊢
    dsimp only
    rw [(sprintfFormatter_putAll m buff p.out).1, bufferAddr_eq hlen hbuff]
    refine ⟨?_, fun a ha => ?_⟩
    · rw [Memory.bytes_succ, Memory.bytes_congr (Memory.write_agreeOn (by omega)),
        sprintfFormatter_putAll_bytes (by omega) (by omega),
        Memory.write_apply_of_mem (by omega) (by omega), Nat.zero_div]
      rfl
    · rw [Memory.write_apply_of_not_mem (by omega)]
      refine sprintfFormatter_putAll_of_ne fun j hj => ?_
      rw [bufferAddr_eq (by omega) (by omega)]
      omega

/-- **The list model of `printk_mp_raw`** prints what the function itself passes to `write_serial`:
where the list model has a result, the loop over the memory ends on the NUL with these bytes. -/
theorem printkMpRawAt_of_list {out : List UInt8} (hfmt : FormatAt m fmt text)
    (hlist : printkMpRaw m text args = some out) :
    ∃ fuel t, printkMpRawAt fuel m fmt args = some t ∧
      t.ptr = fmt + text.length ∧ t.sink.out = out := by
  rw [printkMpRaw_eq_format] at hlist
  split at hlist
  · cases hlist
  · next hopen =>
    obtain ⟨p, hargs, rfl⟩ := Option.map_eq_some_iff.1 hlist
    have hprintk := printkRounds.loop_of_closed hargs hfmt
      (printkFormatter_stable m (CallReads fmt text p) _) (Bool.eq_false_iff.2 hopen)
    refine ⟨_, _, hprintk, rfl, ?_⟩
    dsimp only
    rw [printkFormatter_putAll]
    rfl

end

/-- The sample format with a buffer at 0x1000. -/
theorem formatters_agree_sample : ∃ fuel t t',
    printkMpRawAt fuel sampleFormatMemory 0 [2 ^ 64 - 7, 0x40] = some t ∧
    sprintfRawAt fuel sampleFormatMemory 0x1000 0 [2 ^ 64 - 7, 0x40] = some t' ∧
    t'.sink.stored = t.sink.out := by
  obtain ⟨fuel, t, t', hprintk, hsprintf, -, -, hstored, -⟩ :=
    formatters_agree formatAt_sample (by decide) format_sample 0x1000 (by decide)
  exact ⟨fuel, t, t', hprintk, hsprintf, hstored⟩

end ZeldaOS
