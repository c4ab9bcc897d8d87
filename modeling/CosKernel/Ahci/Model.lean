import CosKernel.Lib.Buffer
import CosKernel.Pci.Model

/-!
# The AHCI driver (`ahci.c`)

The three arrays that the controller reads from memory, the registers that say where
they are, and the calls that fill them in. A read of any other register of the
controller takes the next of a list of answers, since it may say anything; what
is written to `cmd` and `is` has no effect here. A call that runs out of answers
waits for ever (`waits`), and a store outside of the arrays ends it (`outside`).

The string literals that `ahci_memcpy` copies are too short for it: they consist of NUL
bytes, and what follows them in memory may be anything (`Layout.behind`).
-/

namespace CosKernel.Ahci

open Bytes Pci Search

/-- `AHCI_MAX_PORTS` -/
abbrev ahciMaxPorts : Nat := 32

/-- `AHCI_MAX_COMMAND_SLOTS` -/
abbrev ahciMaxCommandSlots : Nat := 32

def hbaPxIsTfes : UInt32 := (1 : UInt32) <<< 30

def ataCmdReadDmaExt : UInt8 := 0x25
def ataCmdWriteDmaExt : UInt8 := 0x35
def fisTypeRegH2d : UInt8 := 0x27

/-! ## State -/

/-- Why a call does not return. -/
inductive Stop where
  | waits
  | outside
deriving DecidableEq, Repr

/-- The addresses of `ahci_cmd_list`, `ahci_fis` and `ahci_cmd_tables`, and the bytes of the program
behind the literal of each length, counted from the start of the literal. -/
structure Layout where
  cmdList : UInt64
  fis : UInt64
  cmdTables : UInt64
  behind : Nat → Nat → UInt8

/-- The three arrays, each with its rows one after the other. -/
structure Memory where
  cmdList : Vector UInt8 (32 * 1024)
  fis : Vector UInt8 (32 * 256)
  cmdTables : Vector UInt8 (32 * 32 * 256)

/-- The base addresses in the registers of a port. -/
structure Bases where
  clb : UInt32
  clbu : UInt32
  fb : UInt32
  fbu : UInt32
deriving DecidableEq, Repr

/-- What the controller meets when a bit of `ci` is set: the port, the word that was read from `ci`, the
bit, the base addresses and the arrays. -/
structure Issue where
  port : UInt64
  ci : UInt32
  bit : UInt32
  bases : Bases
  memory : Memory

/-- A write to the configuration space. -/
structure ConfigWrite where
  bus : UInt8
  device : UInt8
  function : UInt8
  offset : UInt8
  value : UInt32
deriving DecidableEq, Repr

/-- The static variables (a pointer is an address, 0 is `NULL`), the base addresses in the registers of
the port at an address, and what was written so far. -/
structure Driver where
  hba : UInt64
  ports : Fin ahciMaxPorts → UInt64
  bases : UInt64 → Bases
  memory : Memory
  configWrites : List ConfigWrite
  issued : List Issue

/-- The driver as it is loaded, with the registers as they are. -/
def loaded (bases : UInt64 → Bases) (memory : Memory) : Driver where
  hba := 0
  ports := fun _ => 0
  bases := bases
  memory := memory
  configWrites := []
  issued := []

/-- What the registers say, read by read. -/
abbrev Answers := List UInt32

/-! ## Memory -/

/-- A store that has to be inside of its array. -/
def inside {α : Type} : Option α → Except Stop α
  | some a => .ok a
  | none => .error .outside

/-- `count` bytes from a literal of `len` NUL bytes and its terminator on. -/
def literal (layout : Layout) (len count : Nat) : List UInt8 :=
  (List.range count).map fun i => if i ≤ len then 0 else layout.behind len i

/-- `ahci_memcpy` -/
def ahciMemcpy {n : Nat} (dest : Vector UInt8 n) (offset : Nat) (src : List UInt8) : Except Stop (Vector UInt8 n) :=
  inside (store dest offset src)

/-! ## Ports -/

/-- The first bit of `slots` that is clear. -/
def freeSlot (slots : UInt32) : Option Nat :=
  (List.range ahciMaxCommandSlots).find? fun i => slots &&& (1 : UInt32) <<< UInt32.ofNat i == 0

/-- `ahci_port_find_free_slot`, with `none` for -1. -/
def ahciPortFindFreeSlot : Answers → Except Stop (Option Nat × Answers)
  | sact :: ci :: answers => .ok (freeSlot (sact ||| ci), answers)
  | _ => .error .waits

/-- `((uintptr_t)port->clb | ((uint64_t)port->clbu << 32))` -/
def Bases.commandList (b : Bases) : UInt64 := b.clb.toUInt64 ||| b.clbu.toUInt64 <<< 32

/-- `(uint32_t)((uintptr_t)port - (uintptr_t)ahci_ports[0])` -/
def tableRow (d : Driver) (port : UInt64) : UInt32 := (port - d.ports 0).toUInt32

/-- What `dbc` is set to, in two assignments. -/
def byteCount (count : UInt32) : UInt32 :=
  let dbc : UInt32 := count * 512 - 1
  dbc ||| (1 : UInt32) <<< 31

/-- The front of the FIS. -/
def fisBytes (write : Bool) (lba : UInt64) : List UInt8 :=
  [fisTypeRegH2d, 0x80, if write then ataCmdWriteDmaExt else ataCmdReadDmaExt, 0, lba.toUInt8, (lba >>> 8).toUInt8,
    (lba >>> 16).toUInt8, 0, (lba >>> 24).toUInt8, (lba >>> 32).toUInt8, (lba >>> 40).toUInt8]

/-- What `ahci_prepare_command` stores in the table at `table`. -/
def prepareTable (layout : Layout) (tables : Vector UInt8 (32 * 32 * 256)) (table : Nat) (buffer : UInt64)
    (count : UInt32) (write : Bool) (lba : UInt64) : Except Stop (Vector UInt8 (32 * 32 * 256)) := do
  let tables ← ahciMemcpy tables table (literal layout 171 256)
  let tables ← inside (store tables (table + 128) (leBytes 4 buffer.toUInt32.toNat))
  let tables ← inside (store tables (table + 132) (leBytes 4 (buffer >>> 32).toUInt32.toNat))
  let tables ← inside (store tables (table + 140) (leBytes 4 (byteCount count).toNat))
  let tables ← inside (store tables table (fisBytes write lba))
  let tables ← inside (store tables (table + 12) [count.toUInt8, (count >>> 8).toUInt8])
  inside (store tables (table + 64) [0])

/-- What `ahci_prepare_command` stores in the header at `header`: `cfl` is the low five bits of the first
byte, and `w` its bit 6. -/
def prepareHeader (list : Vector UInt8 (32 * 1024)) (header : Nat) (write : Bool) :
    Except Stop (Vector UInt8 (32 * 1024)) := do
  let flags ← inside list[header]?
  let flags := flags &&& 0xE0 ||| 5
  let flags := flags &&& 0xBF ||| if write then 0x40 else 0
  let list ← inside (store list header [flags])
  inside (store list (header + 2) (leBytes 2 1))

/-- `ahci_prepare_command`; its result is always `true` for a slot that exists. -/
def ahciPrepareCommand (layout : Layout) (port : UInt64) (slot : Nat) (buffer : UInt64) (count : UInt32)
    (write : Bool) (lba : UInt64) (d : Driver) (answers : Answers) : Except Stop (Bool × Driver × Answers) :=
  if ahciMaxCommandSlots ≤ slot then .ok (false, d, answers)
  else do
    let header := ((d.bases port).commandList - layout.cmdList).toNat + 32 * slot
    let table := 8192 * (tableRow d port).toNat + 256 * slot
    let cmdTables ← prepareTable layout d.memory.cmdTables table buffer count write lba
    let cmdList ← prepareHeader d.memory.cmdList header write
    let memory := { d.memory with cmdList := cmdList, cmdTables := cmdTables }
    match answers with
    | [] => .error .waits
    | ci :: answers =>
      return (true, { d with
        memory := memory
        issued := d.issued ++ [⟨port, ci, (1 : UInt32) <<< UInt32.ofNat slot, d.bases port, memory⟩] }, answers)

/-- The loop of `ahci_wait_completion`: whether it is left without an error. -/
def waitLoop (bit : UInt32) : Answers → Except Stop (Bool × Answers)
  | [] => .error .waits
  | ci :: answers =>
    if ci &&& bit = 0 then .ok (true, answers)
    else
      match answers with
      | [] => .error .waits
      | tfd :: answers => if tfd &&& hbaPxIsTfes ≠ 0 then .ok (false, answers) else waitLoop bit answers

/-- `ahci_wait_completion` -/
def ahciWaitCompletion (slot : Nat) (answers : Answers) : Except Stop (Bool × Answers) := do
  let (left, answers) ← waitLoop ((1 : UInt32) <<< UInt32.ofNat slot) answers
  if !left then return (false, answers)
  else
    match answers with
    | [] => .error .waits
    | is :: answers => return (is &&& hbaPxIsTfes == 0, answers)

/-- The first port that is there. -/
def firstPort (d : Driver) : Option (Fin ahciMaxPorts) := (List.finRange ahciMaxPorts).find? fun i => d.ports i != 0

/-- `ahci_do_transfer` -/
def ahciDoTransfer (layout : Layout) (lba buffer : UInt64) (count : UInt32) (write : Bool) (d : Driver)
    (answers : Answers) : Except Stop (Bool × Driver × Answers) :=
  if d.hba = 0 then .ok (false, d, answers)
  else
    match firstPort d with
    | none => .ok (false, d, answers)
    | some portIndex => do
      let port := d.ports portIndex
      let (found, answers) ← ahciPortFindFreeSlot answers
      match found with
      | none => return (false, d, answers)
      | some slot =>
        let (prepared, d, answers) ← ahciPrepareCommand layout port slot buffer count write lba d answers
        if !prepared then return (false, d, answers)
        else
          let (completed, answers) ← ahciWaitCompletion slot answers
          return (completed, d, answers)

/-- The body that `ahci_read_sector` and `ahci_write_sector` share. -/
def sector (write : Bool) (layout : Layout) (lba : UInt32) (buffer : UInt64) (d : Driver) (answers : Answers) :
    Except Stop (Int × Driver × Answers) :=
  if buffer = 0 then .ok (-1, d, answers)
  else do
    let (ok, d, answers) ← ahciDoTransfer layout lba.toUInt64 buffer 1 write d answers
    return (if ok then 0 else -1, d, answers)

/-- `ahci_read_sector` -/
def ahciReadSector := sector false

/-- `ahci_write_sector` -/
def ahciWriteSector := sector true

/-! ## Initialization -/

end CosKernel.Ahci
