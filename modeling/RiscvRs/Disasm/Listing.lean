import RiscvRs.Disasm.Decode
import RiscvRs.Session.Stepping

/-! Listings: `disassemble_range` walks from its start to its end without a gap. -/

namespace RiscvRs

open Effects Prog

/-- `u32::saturating_add`. -/
def saturatingAdd (a b : U32) : U32 := if a.toNat + b.toNat < 2 ^ 32 then a + b else 0xFFFFFFFF

/-- The symbol map as the disassembler sees it. -/
def Simulator.symbolNames (sim : Simulator) : Symbols :=
  fun addr => (sim.symbols addr).map String.ofList

/-- The loop of `disassemble_range`, with its bound. -/
def disassembleFrom (env : Env) (symbols : Symbols) (startAddr len : U32) :
    Nat → U32 → Api (List DisassembledInst)
  | 0, _ => exhausted
  | fuel + 1, curr => do
    if curr < saturatingAdd startAddr len then
      let inst ← onMemory (Memory.readU32 env.host curr)
      let item := decodeInstructionWithSymbols curr inst (some symbols)
      let step : U32 := if item.isCompressed then 2 else 4
      let items ← disassembleFrom env symbols startAddr len fuel (saturatingAdd curr step)
      return item :: items
    else
      return []

def disassembleRange (env : Env) (fuel : Nat) (startAddr len : U32) :
    Api (List DisassembledInst) := do
  let sim ← get
  disassembleFrom env sim.symbolNames startAddr len fuel startAddr

/-- The bytes an item covers. -/
def DisassembledInst.size (item : DisassembledInst) : Nat := if item.isCompressed then 2 else 4

/-- The items cover every address from `curr` up to `stop`, each at the end of the one before. -/
def Tiles (stop : Nat) : Nat → List DisassembledInst → Prop
  | curr, [] => stop ≤ curr
  | curr, item :: items =>
    item.address.toNat = curr ∧ curr < stop ∧ Tiles stop (curr + item.size) items

section Tiles

variable {stop curr : Nat} {items : List DisassembledInst}

theorem Tiles.nil_iff (tiles : Tiles stop curr items) : items = [] ↔ stop ≤ curr := by
  cases items with
  | nil => exact iff_of_true rfl tiles
  | cons item rest => exact iff_of_false nofun (not_le.mpr tiles.2.1)

theorem Tiles.head (tiles : Tiles stop curr items) :
    ∀ item ∈ items.head?, item.address.toNat = curr := by
  cases items with
  | nil => nofun
  | cons item rest =>
    rintro _ ⟨⟩
    exact tiles.1

theorem Tiles.chain (tiles : Tiles stop curr items) :
    items.IsChain fun item next => next.address.toNat = item.address.toNat + item.size := by
  induction items generalizing curr with
  | nil => exact .nil
  | cons item rest ih =>
    obtain ⟨here, -, rest'⟩ := tiles
    refine List.isChain_cons.mpr ⟨?_, ih rest'⟩
    intro next first
    rw [rest'.head next first, here]

theorem Tiles.below (tiles : Tiles stop curr items) :
    ∀ item ∈ items, item.address.toNat < stop := by
  induction items generalizing curr with
  | nil => nofun
  | cons item rest ih =>
    obtain ⟨here, below, rest'⟩ := tiles
    exact List.forall_mem_cons.mpr ⟨here ▸ below, ih rest'⟩

theorem Tiles.last (tiles : Tiles stop curr items) :
    ∀ item ∈ items.getLast?, stop ≤ item.address.toNat + item.size := by
  induction items generalizing curr with
  | nil => nofun
  | cons item rest ih =>
    obtain ⟨here, below, rest'⟩ := tiles
    cases rest with
    | nil =>
      subst here
      rintro _ ⟨⟩
      exact rest'
    | cons next others =>
      rw [List.getLast?_cons_cons]
      exact ih rest'

end Tiles

section Loop

variable (env : Env) (symbols : Symbols) (startAddr len : U32)

/-- `item` is the line of the word that stands at its address. -/
structure DisassembledInst.Shows (symbols : Symbols) (mem : Memory) (item : DisassembledInst)
    (w : U32) : Prop where
  line : item = decodeInstructionWithSymbols item.address w (some symbols)
  bytes : item.address.toNat + 4 ≤ 0xFFFF0000 → w = mem.wordAt item.address

theorem saturatingAdd_toNat (a b : U32) :
    (saturatingAdd a b).toNat = min (a.toNat + b.toNat) (2 ^ 32 - 1) := by
  unfold saturatingAdd
  split
  · rw [BitVec.toNat_add]
    omega
  · simp only [BitVec.ofNat_eq_ofNat, BitVec.toNat_ofNat]
    omega

/-- A word read finds a value, and leaves the memory as it is. -/
theorem run_lookAt (addr : U32) (sim : Simulator) :
    ∃ w bus, (onMemory (Memory.readU32 env.host addr)).run sim = .ok w (sim.withBus bus) ∧
      bus.mem = sim.tracked.machine.bus.mem ∧
      (addr.toNat + 4 ≤ 0xFFFF0000 → w = sim.tracked.machine.bus.mem.wordAt addr) := by
  rcases total_readU32 (ε := Empty) env.host addr sim.tracked.machine.bus with ⟨w, bus,
    read, -⟩ | ⟨e, -⟩
  · refine ⟨w, bus, ?_, ((steady_readU32 env.host asks_queryFrame addr).ok read).1, ?_⟩
    · exact run_onMemory read
    · intro below
      exact (Outcome.ok.inj (read.symm.trans (readU32_below env.host _ below))).1
  · exact e.elim

/-- One round of the loop, when there is something to show. -/
theorem disassembleFrom_succ (fuel : Nat) {curr w : U32} {sim : Simulator} {bus : Bus}
    (inside : curr < saturatingAdd startAddr len)
    (read : (onMemory (Memory.readU32 env.host curr)).run sim = .ok w (sim.withBus bus)) :
    (disassembleFrom env symbols startAddr len (fuel + 1) curr).run sim =
      ((disassembleFrom env symbols startAddr len fuel (saturatingAdd curr
        (if (decodeInstructionWithSymbols curr w (some symbols)).isCompressed then 2 else 4))).run
          (sim.withBus bus)).andThen fun items sim' =>
            .ok (decodeInstructionWithSymbols curr w (some symbols) :: items) sim' := by
  rw [disassembleFrom, if_pos inside, run_bind, read]
  rfl

/-- The loop ends, and what it lists tiles the rest of the range: by induction on a bound of
the rest, since a step that saturates is the last one. -/
theorem disassembleFrom_tiles {bound : Nat} {curr : U32}
    (room : (saturatingAdd startAddr len).toNat - curr.toNat < bound) (sim : Simulator) :
    ∃ items sim', (∀ fuel, bound ≤ fuel →
        (disassembleFrom env symbols startAddr len fuel curr).run sim = .ok items sim') ∧
      Tiles (saturatingAdd startAddr len).toNat curr.toNat items ∧
      ∀ item ∈ items, ∃ w, item.Shows symbols sim.tracked.machine.bus.mem w := by
  induction bound generalizing curr sim with
  | zero => exact absurd room (Nat.not_lt_zero _)
  | succ bound ih =>
    by_cases inside : curr < saturatingAdd startAddr len
    · obtain ⟨w, bus, read, mem, bytes⟩ := run_lookAt env curr sim
      obtain ⟨item, shown⟩ : ∃ item, decodeInstructionWithSymbols curr w (some symbols) = item :=
        ⟨_, rfl⟩
      have round (fuel : Nat) := disassembleFrom_succ env symbols startAddr len fuel inside read
      rw [shown] at round
      have here : item.address = curr := by rw [← shown]; rfl
      have step : (if item.isCompressed then 2 else 4 : U32).toNat = item.size := by
        unfold DisassembledInst.size
        split <;> rfl
      have next := saturatingAdd_toNat curr (if item.isCompressed then 2 else 4)
      rw [step] at next
      have top := (saturatingAdd startAddr len).isLt
      have below : curr.toNat < (saturatingAdd startAddr len).toNat := inside
      have positive : 2 ≤ item.size := by
        unfold DisassembledInst.size
        split <;> decide
      have rest : (saturatingAdd startAddr len).toNat -
          (saturatingAdd curr (if item.isCompressed then 2 else 4)).toNat < bound := by omega
      obtain ⟨items, sim', runs, tiles, each⟩ := ih rest (sim.withBus bus)
      refine ⟨item :: items, sim', ?_, ⟨congrArg BitVec.toNat here, below, ?_⟩, ?_⟩
      · intro fuel enough
        obtain ⟨fuel, rfl⟩ : ∃ n, fuel = n + 1 := ⟨fuel - 1, by omega⟩
        rw [round, runs fuel (by omega)]
        rfl
      · rw [next] at tiles
        by_cases fits : curr.toNat + item.size ≤ 2 ^ 32 - 1
        · rwa [min_eq_left fits] at tiles
        · rw [tiles.nil_iff.mpr (by omega)]
          change (saturatingAdd startAddr len).toNat ≤ _
          omega
      · refine List.forall_mem_cons.mpr ⟨⟨w, by rw [here, shown], by rwa [here]⟩, ?_⟩
        rw [← mem]
        exact each
    · refine ⟨[], sim, ?_, not_lt.mp inside, nofun⟩
      intro fuel enough
      obtain ⟨fuel, rfl⟩ : ∃ n, fuel = n + 1 := ⟨fuel - 1, by omega⟩
      rw [disassembleFrom, if_neg inside]
      rfl

end Loop

/-- Neither a jump nor a branch nor a return from an interrupt. -/
def Fetched.NonJumping : Fetched → Prop
  | word raw =>
    let inst := DecodedInst32.decode raw
    Opcode.ofBits? inst.opcode ≠ some .jal ∧ Opcode.ofBits? inst.opcode ≠ some .jalr ∧
      Opcode.ofBits? inst.opcode ≠ some .branch ∧ (word raw).isMret = false
  | half inst =>
    let decoded := DecodedInst16.decode inst
    ¬(decoded.op = 1 ∧ (decoded.funct3 = 1 ∨ decoded.funct3 = 5 ∨ decoded.funct3 = 6 ∨
      decoded.funct3 = 7)) ∧
      ¬(decoded.op = 2 ∧ decoded.funct3 = 4 ∧ regField16 inst 2 = 0 ∧ regField16 inst 7 ≠ 0)

section Straight

variable {cpu : Cpu} {next after : U32}

theorem straight_baseOp {inst : DecodedInst32} (noJal : Opcode.ofBits? inst.opcode ≠ some .jal)
    (noJalr : Opcode.ofBits? inst.opcode ≠ some .jalr)
    (noBranch : Opcode.ofBits? inst.opcode ≠ some .branch) :
    (inst.baseOp cpu next).Plain (· = next) := by
  unfold DecodedInst32.baseOp
  dsimp only
  split
  · exact rfl
  · exact rfl
  · next jal => exact absurd jal noJal
  · next jalr => exact absurd jalr noJalr
  · next branch => exact absurd branch noBranch
  · exact plain_ofResult fun _ => rfl
  · exact plain_ofResult fun _ => rfl
  · exact plain_ofResult fun _ => rfl
  · exact plain_ofResult fun _ => rfl
  · exact rfl
  · trivial

theorem straight_systemOp {inst : DecodedInst32} (noReturn : inst.funct3 = 0 →
    inst.raw >>> 20 ≠ 0x302)
    (goes : (inst.systemOp cpu next).next? = some after) : after = next := by
  unfold DecodedInst32.systemOp at goes
  dsimp only at goes
  split at goes
  · next environment =>
    split at goes
    · exact (Option.some.inj goes).symm
    · split at goes
      · exact (Option.some.inj goes).symm
      · rw [if_neg (noReturn environment)] at goes
        exact (Option.some.inj goes).symm
  · exact (Option.some.inj goes).symm

theorem straight_word (env : Env) {raw : U32} (straight : (Fetched.word raw).NonJumping)
    (goes : ((DecodedInst32.decode raw).op env cpu next).next? = some after) : after = next := by
  obtain ⟨noJal, noJalr, noBranch, noReturn⟩ := straight
  have base : ((DecodedInst32.decode raw).baseOp cpu next).Plain (· = next) :=
    straight_baseOp noJal noJalr noBranch
  have product : ((DecodedInst32.decode raw).mulDivOp cpu next).Plain (· = next) :=
    plain_ofResult fun _ => rfl
  have plain {op : Op} (fine : op.Plain (· = next)) (goes : op.next? = some after) : after = next :=
    Op.next_of_plain fine goes
  unfold DecodedInst32.op at goes
  cases known : Opcode.ofBits? (DecodedInst32.decode raw).opcode with
  | none =>
    rw [known] at goes
    cases goes
  | some code =>
    rw [known] at goes
    cases code with
    | op =>
      dsimp only at goes
      split at goes
      · exact plain product goes
      · exact plain base goes
    | lui | auipc | jal | jalr | branch | load | store | imm | miscMem => exact plain base goes
    | system =>
      refine straight_systemOp (fun environment returns => ?_) goes
      have mret := (Fetched.isMret_word raw).mpr ⟨known, environment, returns⟩
      rw [noReturn] at mret
      cases mret
    | amo => exact (Option.some.inj goes).symm
    | loadFp => exact plain (plain_loadFpOp _ cpu rfl) goes
    | storeFp => exact plain (plain_storeFpOp _ cpu rfl) goes
    | opFp => exact plain (plain_opFpOp env _ cpu rfl) goes
    | madd | msub | nmsub | nmadd => exact plain (plain_fusedOp env _ cpu rfl) goes

theorem straight_quadrant1 (inst : U16) {funct3 : U8}
    (straight : ¬(funct3 = 1 ∨ funct3 = 5 ∨ funct3 = 6 ∨ funct3 = 7)) :
    (quadrant1Op inst cpu next funct3).Plain (· = next) := by
  unfold quadrant1Op
  split
  · dsimp only
    split
    · exact rfl
    · exact rfl
  · exact absurd (.inl rfl) straight
  · exact rfl
  · exact plain_luiGroupOp inst cpu rfl
  · exact plain_aluGroupOp inst cpu rfl
  · exact absurd (.inr (.inl rfl)) straight
  · exact absurd (.inr (.inr (.inl rfl))) straight
  · exact absurd (.inr (.inr (.inr rfl))) straight
  · trivial

theorem straight_jumpGroup (inst : U16)
    (straight : ¬(regField16 inst 2 = 0 ∧ regField16 inst 7 ≠ 0)) :
    (jumpGroupOp inst cpu next).Plain (· = next) := by
  unfold jumpGroupOp
  dsimp only
  split
  · next register =>
    split
    · trivial
    · next jump => exact absurd ⟨register.2, jump⟩ straight
  · split
    · split
      · exact rfl
      · exact rfl
    · split
      · exact rfl
      · next breakpoint =>
        split
        · next register => exact absurd ⟨register, fun zero => breakpoint ⟨zero, register⟩⟩ straight
        · split
          · exact rfl
          · exact rfl

theorem straight_quadrant2 (inst : U16) {funct3 : U8}
    (straight : ¬(funct3 = 4 ∧ regField16 inst 2 = 0 ∧ regField16 inst 7 ≠ 0)) :
    (quadrant2Op inst cpu next funct3).Plain (· = next) := by
  unfold quadrant2Op
  dsimp only
  split
  · split
    · trivial
    · split
      · exact rfl
      · exact rfl
  · exact rfl
  · split
    · trivial
    · exact rfl
  · exact rfl
  · exact straight_jumpGroup inst fun jump => straight ⟨rfl, jump⟩
  · exact rfl
  · exact rfl
  · exact rfl
  · trivial

theorem straight_half {inst : U16} (straight : (Fetched.half inst).NonJumping)
    (goes : (quadrantOp inst cpu next (DecodedInst16.decode inst).op
      (DecodedInst16.decode inst).funct3).next? =
      some after) : after = next := by
  obtain ⟨noJump, noRegister⟩ := straight
  refine Op.next_of_plain (P := (· = next)) ?_ goes
  revert noJump noRegister
  generalize (DecodedInst16.decode inst).op = quadrant
  intro noJump noRegister
  unfold quadrantOp
  split
  · exact plain_quadrant0Op (P := (· = next)) inst cpu rfl _
  · exact straight_quadrant1 inst fun jump => noJump ⟨rfl, jump⟩
  · exact straight_quadrant2 inst fun register => noRegister ⟨rfl, register⟩
  · trivial

end Straight

/-- An instruction that does not jump moves `pc` behind itself. -/
theorem next_of_nonJumping {env : Env} {inst : Fetched} {m m' : Machine}
    (straight : inst.NonJumping)
    (run : (inst.execute env).run m = .ok () m') :
    m'.cpu.pc = m.cpu.pc + BitVec.ofNat 32 inst.width.bytes := by
  obtain ⟨next, n, exec, rfl⟩ := Fetched.execute_ok run
  have goes := Op.next?_of_exec env exec
  cases inst with
  | half inst => exact straight_half straight goes
  | word raw => exact straight_word env straight goes

/-- The length of a line is the width of the instruction it shows. -/
theorem DisassembledInst.Shows.size_eq {symbols : Symbols} {mem : Memory}
    {item : DisassembledInst} {w : U32}
    (shows : item.Shows symbols mem w) : item.size = (Fetched.ofWindow w).width.bytes := by
  have flag : item.isCompressed = decide (w &&& 0x3 ≠ 0x3) := by
    rw [shows.line]
    rfl
  rw [DisassembledInst.size, flag, Fetched.ofWindow]
  by_cases wide : w &&& 0x3 = 0x3
  · rw [if_pos wide, decide_eq_false (not_not.mpr wide)]
    rfl
  · rw [if_neg wide, decide_eq_true wide]
    rfl

/-- `disassemble_range` ends, its items tile the range up to the saturated end, and every
item is as long as the step the processor takes over the instruction it shows. -/
theorem listing_tiles (env : Env) (sim : Simulator) (startAddr len : U32) :
    ∃ items sim', (∀ fuel, len.toNat < fuel →
        (disassembleRange env fuel startAddr len).run sim = .ok items sim') ∧
      (items = [] ↔ min (startAddr.toNat + len.toNat) (2 ^ 32 - 1) ≤ startAddr.toNat) ∧
      (∀ item ∈ items.head?, item.address = startAddr) ∧
      (items.IsChain fun item next =>
        next.address.toNat = item.address.toNat + if item.isCompressed then 2 else 4) ∧
      (∀ item ∈ items, item.address.toNat < min (startAddr.toNat + len.toNat) (2 ^ 32 - 1)) ∧
      (∀ item ∈ items.getLast?, min (startAddr.toNat + len.toNat) (2 ^ 32 - 1) ≤
        item.address.toNat + if item.isCompressed then 2 else 4) ∧
      ∀ item ∈ items, ∃ w, item = decodeInstructionWithSymbols item.address w
        (some sim.symbolNames) ∧
        (item.address.toNat + 4 ≤ 0xFFFF0000 → ∀ (host : Host) (bus : Bus),
          bus.mem = sim.tracked.machine.bus.mem →
          (fetch host item.address).run bus = .ok (Fetched.ofWindow w) bus) ∧
        ∀ (env' : Env) (m m' : Machine), (Fetched.ofWindow w).NonJumping →
          ((Fetched.ofWindow w).execute env').run m = .ok () m' →
          m'.cpu.pc = m.cpu.pc + if item.isCompressed then 2 else 4 := by
  have stop := saturatingAdd_toNat startAddr len
  have room : (saturatingAdd startAddr len).toNat - startAddr.toNat < len.toNat + 1 := by omega
  obtain ⟨items, sim', runs, tiles, shown⟩ :=
    disassembleFrom_tiles env sim.symbolNames startAddr len room sim
  rw [stop] at tiles
  refine ⟨items, sim', ?_, tiles.nil_iff, ?_, tiles.chain, tiles.below, tiles.last, ?_⟩
  · intro fuel enough
    exact runs fuel enough
  · intro item first
    exact BitVec.eq_of_toNat_eq (tiles.head item first)
  · intro item member
    obtain ⟨w, shows⟩ := shown item member
    refine ⟨w, shows.line, ?_, ?_⟩
    · intro below host bus mem
      rw [fetch_instAt host bus below, Memory.instAt, mem, shows.bytes below]
    · intro env' m m' straight run
      rw [next_of_nonJumping straight run, ← shows.size_eq, DisassembledInst.size]
      split <;> rfl

end RiscvRs
