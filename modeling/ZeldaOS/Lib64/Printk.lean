import Mathlib.Data.List.TakeWhile
import ZeldaOS.Lib.Memory
import ZeldaOS.Memory.PhysicalMemory

/-!
# printk

Model of `printk_mp_raw` of `lib64/printk.c`: the bytes that a call writes to the host's serial
port. A format string is the list of its bytes, and an argument is a machine word, for `%s` the
address of a string in memory. A call that reads an argument or a byte of the format it does not
have gives `none`.
-/

namespace ZeldaOS

/-- The bytes of a string literal. -/
def literal (cs : List Char) : List UInt8 := cs.map fun c => UInt8.ofNat c.toNat

/-- The loops of `resolve_qword` and `resolve_hex_qword` that fill the stack of `n` digits. -/
def resolveStack (base : Nat) (digit : Nat → UInt8) : Nat → Nat → List UInt8
  | 0, _ => []
  | n + 1, qword =>
    if qword = 0 then [] else digit (qword % base) :: resolveStack base digit n (qword / base)

/-- A number by its digits, which come off the stack in reverse. -/
def resolveDigits (base : Nat) (digit : Nat → UInt8) (qword : Nat) : List UInt8 :=
  match resolveStack base digit 128 qword with
  | [] => literal ['0']
  | stack => stack.reverse

/-- `resolve_qword`. -/
def resolveQword (qword : Nat) : List UInt8 :=
  resolveDigits 10 (fun mod => UInt8.ofNat (0x30 + mod)) qword

/-- The table `lower` of `resolve_hex_qword` and of `resolve_hexadecimal`. -/
def lowerDigits : List UInt8 :=
  literal ['0', '1', '2', '3', '4', '5', '6', '7', '8', '9', 'a', 'b', 'c', 'd', 'e', 'f']

/-- The table `upper` of both. -/
def upperDigits : List UInt8 :=
  literal ['0', '1', '2', '3', '4', '5', '6', '7', '8', '9', 'A', 'B', 'C', 'D', 'E', 'F']

/-- `is_lowercase ? lower[mod] : upper[mod]`. -/
def hexTable (isLowercase : Bool) (mod : Nat) : UInt8 :=
  ((if isLowercase then lowerDigits else upperDigits)[mod]?).getD 0

/-- `resolve_hex_qword`. -/
def resolveHexQword (qword : Nat) (isLowercase : Bool) : List UInt8 :=
  resolveDigits 16 (hexTable isLowercase) qword

/-- The cases `'d'` and `'q'`: a signed number of `bits` bits, printed by its sign and its absolute
value. -/
def resolveSigned (bits arg : Nat) : List UInt8 :=
  let value := Int.bmod arg (2 ^ bits)
  if value < 0 then literal ['-'] ++ resolveQword (toUInt64 (Int.bmod (-value) (2 ^ bits)))
  else resolveQword (toUInt64 value)

/-- The case `'s'`: the bytes in front of the first 0, of which none is further away than the
address space is long. -/
def stringAt (m : Memory) : Nat → Nat → Option (List UInt8)
  | 0, _ => none
  | n + 1, p => if m p = 0 then some [] else (stringAt m n (p + 1)).map (m p :: ·)

/-- The cases of the switch over the byte behind `%`, and what they print for their argument. -/
def directives : List (UInt8 × (Memory → Nat → Option (List UInt8))) :=
  [ (0x73, fun m arg => stringAt m (2 ^ 64) arg), -- 's'
    (0x63, fun _ arg => some [UInt8.ofNat arg]), -- 'c'
    (0x64, fun _ arg => some (resolveSigned 32 arg)), -- 'd'
    (0x71, fun _ arg => some (resolveSigned 64 arg)), -- 'q'
    (0x78, fun _ arg => some (resolveHexQword arg true)), -- 'x'
    (0x58, fun _ arg => some (resolveHexQword arg false)) ] -- 'X'

/-- `printk_mp_raw`. -/
def printkMpRaw (m : Memory) : List UInt8 → List Nat → Option (List UInt8)
  | [], _ => some []
  | [b], _ => if b = 0x25 then none else some [b]
  | b :: d :: fmt, args =>
    if b ≠ 0x25 then (printkMpRaw m (d :: fmt) args).map (b :: ·)
    else
      match directives.find? fun x => x.1 == d with
      | none => printkMpRaw m fmt args
      | some x =>
        match args with
        | [] => none
        | arg :: args =>
          (x.2 m arg).bind fun out => (printkMpRaw m fmt args).map (out ++ ·)

section
variable {m : Memory} {fmt out : List UInt8} {args : List Nat}

/-- A byte other than `%` is printed as it is. -/
theorem printkMpRaw_cons {b : UInt8} (hb : b ≠ 0x25) :
    printkMpRaw m (b :: fmt) args = (printkMpRaw m fmt args).map (b :: ·) := by
  cases fmt with
  | nil => simp [printkMpRaw, hb]
  | cons d fmt => rw [printkMpRaw, if_pos hb]

/-- So is a text without `%`. -/
theorem printkMpRaw_append {text : List UInt8} (htext : ∀ b ∈ text, b ≠ 0x25) :
    printkMpRaw m (text ++ fmt) args = (printkMpRaw m fmt args).map (text ++ ·) := by
  induction text with
  | nil => simp
  | cons b text ih =>
    rw [List.cons_append, printkMpRaw_cons (htext b List.mem_cons_self),
      ih fun b hb => htext b (List.mem_cons_of_mem _ hb), Option.map_map]
    rfl

/-- A directive prints its argument. -/
theorem printkMpRaw_directive {d : UInt8} {print : Memory → Nat → Option (List UInt8)} {arg : Nat}
    (hd : directives.find? (fun x => x.1 == d) = some (d, print)) (hout : print m arg = some out) :
    printkMpRaw m (0x25 :: d :: fmt) (arg :: args) = (printkMpRaw m fmt args).map (out ++ ·) := by
  rw [printkMpRaw, if_neg (by decide), hd]
  dsimp only
  rw [hout, Option.bind_some]

end

/-- The string that bytes stand for: what is in front of their first 0. -/
def cString (bytes : List UInt8) : List UInt8 := bytes.takeWhile (· ≠ 0)

theorem cString_eq_self {bytes : List UInt8} (h : ∀ b ∈ bytes, b ≠ 0) : cString bytes = bytes :=
  List.takeWhile_eq_self_iff.2 (by simpa using h)

/-- The string at an address, of bytes that a 0 follows. -/
theorem stringAt_cString {m : Memory} : ∀ {bytes : List UInt8} {n p : Nat},
    m.bytes p bytes.length = bytes → m (p + bytes.length) = 0 → bytes.length < n →
    stringAt m n p = some (cString bytes)
  | [], n + 1, p, _, hend, _ => by
    rw [stringAt, if_pos (by simpa using hend)]
    rfl
  | b :: bytes, n + 1, p, hbytes, hend, hn => by
    rw [List.length_cons] at hbytes hend hn
    rw [Memory.bytes, List.cons.injEq] at hbytes
    obtain ⟨hb, hbytes⟩ := hbytes
    have hrest := stringAt_cString (n := n) hbytes (by rw [← hend]; congr 1; omega) (by omega)
    rw [stringAt, hb, hrest]
    by_cases hzero : b = 0
    · simp [cString, hzero]
    · simp [cString, hzero]

end ZeldaOS
