import ZeldaOS.VmMonitor.EptMisconfig
import ZeldaOS.VmMonitor.Pio

/-!
# Emulation of port accesses

Model of `io_instruction_exit_sub_handler` of `vm_monitor/vmx_pio.c`. A guest access to a port exits
with a description of the access, the exit qualification; the handler looks up the callbacks of the
port and emulates accesses of one byte.
-/

namespace ZeldaOS

/-- The callbacks for bytes, on the state `D` of the devices; one that panics gives `none`. -/
inductive PortioCallback (D : Type)
  | inb (callback : Nat → D → Option (UInt8 × D))
  | outb (callback : Nat → UInt8 → D → Option D)

section
variable {D : Type}

/-- A call of `call_inb`, which the handler asserts to be there. -/
def callInb (ops : PortioOperation (PortioCallback D)) (portId : Nat) (d : D) :
    Option (UInt8 × D) :=
  match ops.callInb with
  | some (.inb callback) => callback portId d
  | _ => none

/-- A call of `call_outb`, which the handler asserts to be there. -/
def callOutb (ops : PortioOperation (PortioCallback D)) (portId : Nat) (byte : UInt8) (d : D) :
    Option D :=
  match ops.callOutb with
  | some (.outb callback) => callback portId byte d
  | _ => none

/-- The switch over the size of the access, of which only bytes are emulated. -/
def emulatePortAccess (ops : PortioOperation (PortioCallback D))
    (accessSize accessDirec portId : Nat) (g : Guest D) : Option (Guest D) :=
  if accessSize = 0 then
    if accessDirec = 0 then
      (callOutb ops portId (UInt8.ofNat g.vcpu.state.rax) g.devices).map fun devices =>
        { g with devices }
    else
      (callInb ops portId g.devices).map fun r =>
        { g with
          vcpu := { g.vcpu with state := { g.vcpu.state with rax := r.1.toNat } }
          devices := r.2 }
  else none

/-- The port of an exit qualification. -/
def qualifiedPort (exitQualification : Nat) : Nat := (exitQualification >>> 16) &&& 0xffff

/-- The direction of an exit qualification: 0 for OUT and 1 for IN. -/
def qualifiedDirection (exitQualification : Nat) : Nat := (exitQualification >>> 3) &&& 1

/-- `io_instruction_exit_sub_handler`. -/
def ioInstructionExitSubHandler (portioOps : List (PortioOperation (PortioCallback D)))
    (exitQualification instructionLength : Nat) (g : Guest D) : Option (Guest D) :=
  -- no string access, no REP prefix, no port in the instruction
  if (exitQualification >>> 4) &&& 1 = 0 ∧ (exitQualification >>> 5) &&& 1 = 0 ∧
      (exitQualification >>> 6) &&& 1 = 0 then
    (portioCallback portioOps (qualifiedPort exitQualification)).join.bind fun ops =>
      (emulatePortAccess ops (exitQualification &&& 7) (qualifiedDirection exitQualification)
        (qualifiedPort exitQualification) g).map fun g => gotoNextInstruction g instructionLength
  else none

/-- An exit by an OUT of a byte to a port calls the port's callback with AL. -/
theorem ioInstructionExitSubHandler_outb {portioOps : List (PortioOperation (PortioCallback D))}
    {ops : PortioOperation (PortioCallback D)}
    {callback : Nat → UInt8 → D → Option D} {portId : Nat}
    (hport : portId < 2 ^ 16) (hops : portioCallback portioOps portId = some (some ops))
    (hcall : ops.callOutb = some (.outb callback)) (instructionLength : Nat) (g : Guest D) :
    ioInstructionExitSubHandler portioOps (portId <<< 16) instructionLength g =
      (callback portId (UInt8.ofNat g.vcpu.state.rax) g.devices).map fun devices =>
        gotoNextInstruction { g with devices } instructionLength := by
  -- all fields of the exit qualification but the port are 0
  have hlow : ∀ k < 16, (portId <<< 16 >>> k) &&& 1 = 0 := by
    intro k hk
    rw [Nat.and_one_is_mod, Nat.shiftRight_eq_div_pow, Nat.shiftLeft_eq,
      show 16 = (16 - k - 1) + 1 + k by omega, Nat.pow_add, ← Nat.mul_assoc,
      Nat.mul_div_cancel _ (Nat.two_pow_pos k), Nat.pow_succ, ← Nat.mul_assoc, Nat.mul_mod_left]
  have hsize : portId <<< 16 &&& 7 = 0 := by
    rw [show 7 = 2 ^ 3 - 1 from rfl, and_mask_eq_mod, Nat.shiftLeft_eq]
    omega
  have hqualified : qualifiedPort (portId <<< 16) = portId := by
    rw [qualifiedPort, Nat.shiftLeft_shiftRight, show 0xffff = 2 ^ 16 - 1 from rfl, and_mask_eq_mod,
      Nat.mod_eq_of_lt hport]
  have hdirection : qualifiedDirection (portId <<< 16) = 0 := hlow 3 (by decide)
  rw [ioInstructionExitSubHandler,
    if_pos ⟨hlow 4 (by decide), hlow 5 (by decide), hlow 6 (by decide)⟩,
    hqualified, hdirection, hsize, hops]
  simp only [Option.join_some, Option.bind_some, emulatePortAccess, callOutb, hcall, if_true]
  rw [Option.map_map]
  rfl

end

end ZeldaOS
