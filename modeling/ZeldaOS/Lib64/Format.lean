import ZeldaOS.Lib64.Printk

/-!
# The formatters

Models of the three interpreters of format strings: `printk_mp_raw` of `lib64/printk.c`, its copy in
`guest/printk.c`, and `sprintf_raw` of `lib64/string.c`. In each a cursor runs over the format in
memory, a byte other than `%` goes to the output, and `%` takes the cursor to the next byte, over
which the function switches.

`printk_mp_raw` and `sprintf_raw` are written separately, and so are their models: each has its own
main loop, its own body, its own switch and its own routines for numbers. The characters of
`printk_mp_raw` go to the serial port. Those of `sprintf_raw` go to a buffer, which is memory, so
that a string may be overwritten while it is read.

The state of the main loop also records the addresses of the bytes of the format that have been
read. A run that takes an argument that is not there gives `none`.
-/

namespace ZeldaOS

/-- The state of the main loop of a formatter. -/
structure Formatting (σ : Type*) where
  /-- `ptr`. -/
  ptr : Nat
  /-- The arguments that `va_arg` has not taken yet. -/
  args : List Nat
  /-- Where the characters go. -/
  sink : σ
  /-- The addresses of the bytes of the format read so far. -/
  reads : List Nat

/-! ## `printk_mp_raw` -/

/-- A serial port: the memory that the formatter reads, and the bytes passed to `write_serial` so
far. -/
structure SerialSink where
  mem : Memory
  out : List UInt8

namespace SerialSink

/-- `write_serial`. -/
def writeSerial (s : SerialSink) (b : UInt8) : SerialSink := { s with out := s.out ++ [b] }

/-- The loop of the case `'s'`. A string that does not end within the address space gives `none`. -/
def writeString : Nat → SerialSink → Nat → Option SerialSink
  | 0, _, _ => none
  | n + 1, s, stringPtr =>
    if s.mem stringPtr = 0 then some s
    else writeString n (s.writeSerial (s.mem stringPtr)) (stringPtr + 1)

/-- The cases `'d'` and `'q'`, for an argument of `bits` bits: the sign, and `resolve_qword`. -/
def writeSigned (bits : Nat) (s : SerialSink) (arg : Nat) : SerialSink :=
  let value := Int.bmod arg (2 ^ bits)
  if value < 0 then
    (resolveQword (toUInt64 (Int.bmod (-value) (2 ^ bits)))).foldl writeSerial (s.writeSerial 0x2d)
  else (resolveQword (toUInt64 value)).foldl writeSerial s

end SerialSink

/-- The switch of `printk_mp_raw` over the byte `b`. Every case but the default takes an
argument. -/
def printkSwitch (s : SerialSink) (args : List Nat) (b : UInt8) : Option (SerialSink × List Nat) :=
  if b = 0x73 then do -- 's'
    let stringPtr ← args.head?
    let s ← s.writeString (2 ^ 64) stringPtr
    return (s, args.tail)
  else if b = 0x63 then do -- 'c'
    let charArg ← args.head?
    return (s.writeSerial (UInt8.ofNat charArg), args.tail)
  else if b = 0x64 then do -- 'd'
    let dwordArg ← args.head?
    return (s.writeSigned 32 dwordArg, args.tail)
  else if b = 0x71 then do -- 'q'
    let qwordArg ← args.head?
    return (s.writeSigned 64 qwordArg, args.tail)
  else if b = 0x78 then do -- 'x'
    let qwordArg ← args.head?
    return ((resolveHexQword qwordArg true).foldl SerialSink.writeSerial s, args.tail)
  else if b = 0x58 then do -- 'X'
    let qwordArg ← args.head?
    return ((resolveHexQword qwordArg false).foldl SerialSink.writeSerial s, args.tail)
  else some (s, args)

/-- The body of the main loop of `printk_mp_raw`, with the `ptr++` of its head. In a directive the
cursor moves twice, and the byte it moves to first is not compared with 0. -/
def printkBody (t : Formatting SerialSink) : Option (Formatting SerialSink) :=
  let b := t.sink.mem t.ptr
  if b ≠ 0x25 then
    some { t with ptr := t.ptr + 1, sink := t.sink.writeSerial b, reads := t.reads ++ [t.ptr] }
  else
    (printkSwitch t.sink t.args (t.sink.mem (t.ptr + 1))).map fun r =>
      { ptr := t.ptr + 1 + 1, args := r.2, sink := r.1, reads := t.reads ++ [t.ptr, t.ptr + 1] }

/-- The main loop of `printk_mp_raw`, for less than `fuel` rounds. -/
def printkLoop : Nat → Formatting SerialSink → Option (Formatting SerialSink)
  | 0, _ => none
  | fuel + 1, t =>
    if t.sink.mem t.ptr = 0 then some { t with reads := t.reads ++ [t.ptr] }
    else (printkBody t).bind (printkLoop fuel)

/-- `printk_mp_raw` on the format at `fmt`. -/
def printkMpRawAt (fuel : Nat) (m : Memory) (fmt : Nat) (args : List Nat) :
    Option (Formatting SerialSink) :=
  printkLoop fuel ⟨fmt, args, ⟨m, []⟩, []⟩

/-- The guest's `printk_mp_raw`, a copy of the hypervisor's. -/
def guestPrintkMpRawAt (fuel : Nat) (m : Memory) (fmt : Nat) (args : List Nat) :
    Option (Formatting SerialSink) :=
  printkLoop fuel ⟨fmt, args, ⟨m, []⟩, []⟩

/-! ## `sprintf_raw` -/

/-- The buffer of `sprintf_raw`: the index `iptr`, an `int`, and the bytes stored so far. -/
structure BufferSink where
  mem : Memory
  iptr : Int
  stored : List UInt8

/-- The address of `buff[iptr]`. -/
def bufferAddr (buff : Nat) (iptr : Int) : Nat := toUInt64 (buff + iptr)

namespace BufferSink

/-- `buff[iptr++] = b`. -/
def store (buff : Nat) (s : BufferSink) (b : UInt8) : BufferSink :=
  { mem := s.mem.write (bufferAddr buff s.iptr) 1 b.toNat
    iptr := int32 (s.iptr + 1)
    stored := s.stored ++ [b] }

/-- The loop of the case `'s'`, which reads the memory that it stores to. -/
def storeString (buff : Nat) : Nat → BufferSink → Nat → Option BufferSink
  | 0, _, _ => none
  | n + 1, s, stringPtr =>
    if s.mem stringPtr = 0 then some s
    else storeString buff n (s.store buff (s.mem stringPtr)) (stringPtr + 1)

end BufferSink

/-- How `resolve_decimal` and `resolve_hexadecimal` end: a `'0'` for an empty stack, and the loop
that takes the digits off the stack into the buffer. -/
def popStack (buff : Nat) (s : BufferSink) (stack : List UInt8) : BufferSink :=
  (if stack = [] then literal ['0'] else stack).foldr (fun b s => s.store buff b) s

/-- `resolve_decimal`. -/
def resolveDecimal (buff : Nat) (s : BufferSink) (qword : Nat) : BufferSink :=
  popStack buff s (resolveStack 10 (fun mod => UInt8.ofNat (0x30 + mod)) 128 qword)

/-- `resolve_hexadecimal`. -/
def resolveHexadecimal (buff : Nat) (s : BufferSink) (qword : Nat) (isLowercase : Bool) :
    BufferSink :=
  popStack buff s (resolveStack 16 (hexTable isLowercase) 128 qword)

/-- The cases `'d'` and `'q'` of `sprintf_raw`, for an argument of `bits` bits. -/
def BufferSink.storeSigned (buff bits : Nat) (s : BufferSink) (arg : Nat) : BufferSink :=
  let value := Int.bmod arg (2 ^ bits)
  if value < 0 then
    resolveDecimal buff (s.store buff 0x2d) (toUInt64 (Int.bmod (-value) (2 ^ bits)))
  else resolveDecimal buff s (toUInt64 value)

/-- The switch of `sprintf_raw` over the byte at `ptr`. The cases `'x'` and `'X'` are one, which
looks at the byte again to tell them apart. -/
def sprintfSwitch (buff : Nat) (s : BufferSink) (args : List Nat) (ptr : Nat) :
    Option (BufferSink × List Nat) :=
  if s.mem ptr = 0x73 then do -- 's'
    let stringPtr ← args.head?
    let s ← s.storeString buff (2 ^ 64) stringPtr
    return (s, args.tail)
  else if s.mem ptr = 0x63 then do -- 'c'
    let charArg ← args.head?
    return (s.store buff (UInt8.ofNat charArg), args.tail)
  else if s.mem ptr = 0x64 then do -- 'd'
    let dwordArg ← args.head?
    return (s.storeSigned buff 32 dwordArg, args.tail)
  else if s.mem ptr = 0x71 then do -- 'q'
    let qwordArg ← args.head?
    return (s.storeSigned buff 64 qwordArg, args.tail)
  else if s.mem ptr = 0x78 ∨ s.mem ptr = 0x58 then do -- 'x' and 'X'
    let qwordArg ← args.head?
    return (resolveHexadecimal buff s qwordArg (s.mem ptr == 0x78), args.tail)
  else some (s, args)

/-- The body of the main loop of `sprintf_raw`, with the `ptr++` of its head. -/
def sprintfBody (buff : Nat) (t : Formatting BufferSink) : Option (Formatting BufferSink) :=
  let b := t.sink.mem t.ptr
  if b ≠ 0x25 then
    some { t with ptr := t.ptr + 1, sink := t.sink.store buff b, reads := t.reads ++ [t.ptr] }
  else
    (sprintfSwitch buff t.sink t.args (t.ptr + 1)).map fun r =>
      { ptr := t.ptr + 1 + 1, args := r.2, sink := r.1, reads := t.reads ++ [t.ptr, t.ptr + 1] }

/-- The main loop of `sprintf_raw`, for less than `fuel` rounds. -/
def sprintfLoop (buff : Nat) : Nat → Formatting BufferSink → Option (Formatting BufferSink)
  | 0, _ => none
  | fuel + 1, t =>
    if t.sink.mem t.ptr = 0 then some { t with reads := t.reads ++ [t.ptr] }
    else (sprintfBody buff t).bind (sprintfLoop buff fuel)

/-- `sprintf_raw`, which stores a NUL behind the characters. -/
def sprintfRawAt (fuel : Nat) (m : Memory) (buff fmt : Nat) (args : List Nat) :
    Option (Formatting BufferSink) :=
  (sprintfLoop buff fuel ⟨fmt, args, ⟨m, 0, []⟩, []⟩).map fun t =>
    { t with sink.mem := t.sink.mem.write (bufferAddr buff t.sink.iptr) 1 0 }

end ZeldaOS
