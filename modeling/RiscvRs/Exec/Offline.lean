import RiscvRs.Exec.Blind
import RiscvRs.Exec.Devices
import RiscvRs.Exec.Stops

/-! Instructions whose access lies in RAM do not see what the devices were asked before them. -/

namespace RiscvRs

open Effects Prog Bytes

section Accesses

variable {ε : Type}

theorem offline_readAt (host : Host) (w : Width) {addr : U32}
    (below : addr.toNat + w.bytes ≤ 0xFFFF0000) :
    Blind Bus.mem (Memory.readAt host w addr : Prog Bus ε _) := by
  intro bus bus' same
  obtain ⟨val, read, value⟩ := readAt_below (ε := ε) host bus w below
  obtain ⟨val', read', value'⟩ := readAt_below (ε := ε) host bus' w below
  have equal : val = val' := by
    apply BitVec.eq_of_toNat_eq
    rw [value, value', same]
  rw [read, read', equal]
  exact .ok val' same

theorem offline_writeU8 {addr : U32} (ram : ¬addr ≥ mmioBase) (val : U8) :
    Blind Bus.mem (Memory.writeU8 addr val : Prog Bus ε Unit) := by
  refine blind_of_ok (fun _ => ()) (fun bus => bus.store addr val)
    (fun bus => writeU8_ram bus ram val) ?_
  intro bus bus' same
  have stored : bus.mem.store addr val = bus'.mem.store addr val :=
    congrArg (Memory.store · addr val) same
  exact ⟨rfl, stored⟩

theorem offline_writeEach {addr : U32} (bytes : List U8)
    (below : addr.toNat + bytes.length ≤ 0xFFFF0000) :
    Blind Bus.mem (Memory.writeEach addr bytes : Prog Bus ε Unit) := by
  induction bytes generalizing addr with
  | nil => exact blind_pure ()
  | cons b rest ih =>
    rw [List.length_cons] at below
    have ram : ¬addr ≥ mmioBase := by
      rw [mmioBase_le_iff]
      omega
    have next : (addr + 1).toNat = addr.toNat + 1 := toNat_succ (by omega)
    exact blind_bind (offline_writeU8 ram b) fun _ => ih (by omega)

theorem offline_writeAt (w : Width) {addr : U32} (below : addr.toNat + w.bytes ≤ 0xFFFF0000)
    (val : BitVec w.bits) :
    Blind Bus.mem (Memory.writeAt w addr val : Prog Bus ε Unit) := by
  have ram : ¬addr ≥ mmioBase := by
    rw [mmioBase_le_iff]
    cases w <;> simp only [Width.bytes] at below <;> omega
  have each : Blind Bus.mem (Memory.writeEach addr (leBytes val w.bytes) : Prog Bus ε Unit) :=
    offline_writeEach _ (by simpa [leBytes] using below)
  exact each.of_run fun bus => writeAt_bytewise bus w ram val

end Accesses

section Instructions

variable {env : Env} {cpu : Cpu}

/-- The access lies in RAM. -/
def Access.InRam (access : Access) : Prop := access.addr.toNat + access.count ≤ 0xFFFF0000

instance (access : Access) : Decidable access.InRam := inferInstanceAs (Decidable (_ ≤ _))

theorem Op.reached_of_inRam {op : Op} (inRam : (op.access cpu).InRam)
    (uncalled : ∀ next, op ≠ .ecall next) :
    op.Reached env Bus.mem := by
  have both {addr half : U32} (below : addr.toNat + 8 ≤ 0xFFFF0000)
    (either : half ∈ [addr, addr + 4]) :
      half.toNat + Width.word.bytes ≤ 0xFFFF0000 := by
    have later : (addr + 4).toNat = addr.toNat + 4 := toNat_add_of_lt addr 4 (by omega)
    simp only [List.mem_cons, List.not_mem_nil, or_false] at either
    rcases either with rfl | rfl
    · exact (Nat.add_le_add_left (by decide) _).trans below
    · rw [later]
      exact below
  cases op with
  | load kind rd addr next => exact offline_readAt env.host kind.width inRam
  | loadSingle rd addr next => exact offline_readAt env.host .word inRam
  | loadDouble plain rd addr next =>
    exact fun half either => offline_readAt env.host .word (both inRam either)
  | store width addr val next => exact offline_writeAt width inRam _
  | storeDouble plain bits addr next =>
    exact fun half either val => offline_writeAt .word (both inRam either) val
  | amo raw funct5 rd addr src next =>
    exact ⟨offline_readAt env.host .word inRam, offline_writeAt .word inRam⟩
  | ecall next => exact absurd rfl (uncalled next)
  | _ => trivial

/-- There is no compressed `ECALL`. -/
theorem half_ne_ecall (inst : U16) (next : U32) : (Fetched.half inst).op env cpu ≠ .ecall next := by
  intro called
  rcases (Fetched.half inst).op_stops env cpu with ordinary | ⟨ecall, -⟩ | ⟨-, target, op⟩
  · rw [called] at ordinary
    exact ordinary
  · exact ecall
  · cases called.symm.trans op

/-- A halfword whose access lies in RAM does alike on machines that differ in what the host saw. -/
theorem alike_half {inst : U16} {m m' : Machine} (cpu : m.cpu = m'.cpu)
    (mem : m.bus.mem = m'.bus.mem)
    (inRam : (((Fetched.half inst).op env m.cpu).access m.cpu).InRam) :
    (((Fetched.half inst).execute env).run m).Alike (Machine.seen id Bus.mem)
      (((Fetched.half inst).execute env).run m') :=
  Fetched.alike_execute seesCpu_id _ (Prod.ext cpu mem)
    (Op.reached_of_inRam inRam (half_ne_ecall inst))

end Instructions

end RiscvRs
