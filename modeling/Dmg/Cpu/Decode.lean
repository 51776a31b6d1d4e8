import Dmg.Cpu.Instr
/-!
# Decoding opcodes

An opcode splits into the fields `x` (bits 7 and 6), `y` (bits 5 to 3) and
`z` (bits 2 to 0), and `y` again into `p` (its top two bits) and `q` (its low
bit). The four quarters of the opcode space are:

* `x = 0`: loads of immediates, accumulator loads and stores, increments and
  decrements, the accumulator rotates and flag operations, relative jumps;
* `x = 1`: `LD r,r'`, with `HALT` in the place of `LD (HL),(HL)`;
* `x = 2`: the accumulator operations on a register or (HL);
* `x = 3`: stack, control flow, I/O loads, immediate ALU operations, and
  the eleven holes D3 DB DD E3 E4 EB EC ED F4 FC FD.

`decode` gives the instruction of an opcode, `none` for a hole. It is the
instruction set's own reading of the opcode by its fields; the engine runs
the opcode table (`Dmg.instructions`), which gives every opcode the line of
this reading (`Dmg.Proofs.Table`).

Key definitions: `decode`, `holes`.
-/

namespace Dmg

/-- The pair for the two-bit field `p` of a 16-bit load, increment or add. -/
def Pair.ofIndex (p : UInt8) : Pair :=
  match p &&& 3 with
  | 0 => .bc
  | 1 => .de
  | 2 => .hl
  | _ => .sp

/-- The pair for the two-bit field `p` of a push or pop. -/
def StackPair.ofIndex (p : UInt8) : StackPair :=
  match p &&& 3 with
  | 0 => .bc
  | 1 => .de
  | 2 => .hl
  | _ => .af

/-- The accumulator operation for the three-bit field `y`. -/
def AluOp.ofIndex (y : UInt8) : AluOp :=
  match y &&& 7 with
  | 0 => .add
  | 1 => .adc
  | 2 => .sub
  | 3 => .sbc
  | 4 => .and
  | 5 => .xor
  | 6 => .or
  | _ => .cp

/-- The accumulator address for `p` in `LD (..),A` and `LD A,(..)` with `x = 0`. -/
def Indirect.ofIndex (p : UInt8) : Indirect :=
  match p &&& 3 with
  | 0 => .bc
  | 1 => .de
  | 2 => .hlInc
  | _ => .hlDec

/-- The restart number for the three-bit field `y`. -/
def rstIndex (y : UInt8) : Fin 8 := ⟨(y &&& 7).toNat % 8, Nat.mod_lt _ (by decide)⟩

/-- The instructions with `x = 0`. -/
def decodeQuarter0 (y z : UInt8) : Instr :=
  let p := y >>> 1
  let q := y &&& 1
  match z with
  | 0 =>
    match y with
    | 0 => .nop
    | 1 => .storeSp
    | 2 => .stop
    | 3 => .jr .always
    | _ => .jr (Cond.ofIndex y)
  | 1 => if q = 0 then .ldPairImm (Pair.ofIndex p) else .addHl (Pair.ofIndex p)
  | 2 => if q = 0 then .storeA (Indirect.ofIndex p) else .loadA (Indirect.ofIndex p)
  | 3 => if q = 0 then .incPair (Pair.ofIndex p) else .decPair (Pair.ofIndex p)
  | 4 => .inc (Operand8.ofIndex y)
  | 5 => .dec (Operand8.ofIndex y)
  | 6 => .ldImm (Operand8.ofIndex y)
  | _ =>
    match y with
    | 0 => .rotateA .rlc
    | 1 => .rotateA .rrc
    | 2 => .rotateA .rl
    | 3 => .rotateA .rr
    | 4 => .daa
    | 5 => .cpl
    | 6 => .scf
    | _ => .ccf

/-- The instructions with `x = 3`; `none` for the holes. -/
def decodeQuarter3 (y z : UInt8) : Option Instr :=
  let p := y >>> 1
  let q := y &&& 1
  match z with
  | 0 =>
    match y with
    | 4 => some (.storeA .high)
    | 5 => some .addSp
    | 6 => some (.loadA .high)
    | 7 => some .ldHlSpOffset
    | _ => some (.ret (Cond.ofIndex y))
  | 1 =>
    if q = 0 then some (.pop (StackPair.ofIndex p))
    else
      match p with
      | 0 => some (.ret .always)
      | 1 => some .reti
      | 2 => some .jpHl
      | _ => some .ldSpHl
  | 2 =>
    match y with
    | 4 => some (.storeA .highC)
    | 5 => some (.storeA .absolute)
    | 6 => some (.loadA .highC)
    | 7 => some (.loadA .absolute)
    | _ => some (.jp (Cond.ofIndex y))
  | 3 =>
    match y with
    | 0 => some (.jp .always)
    | 1 => some .cb
    | 6 => some .di
    | 7 => some .ei
    | _ => none
  | 4 => if y < 4 then some (.call (Cond.ofIndex y)) else none
  | 5 =>
    if q = 0 then some (.push (StackPair.ofIndex p))
    else if p = 0 then some (.call .always)
    else none
  | 6 => some (.aluImm (AluOp.ofIndex y))
  | _ => some (.rst (rstIndex y))

/-- The instruction an opcode encodes, or `none` for one of the eleven holes. -/
def decode (op : UInt8) : Option Instr :=
  let y := (op >>> 3) &&& 7
  let z := op &&& 7
  match op >>> 6 with
  | 0 => some (decodeQuarter0 y z)
  | 1 => some (if y = 6 ∧ z = 6 then .halt else .ld (Operand8.ofIndex y) (Operand8.ofIndex z))
  | 2 => some (.alu (AluOp.ofIndex y) (Operand8.ofIndex z))
  | _ => decodeQuarter3 y z

/-- The opcodes with no instruction. -/
def holes : List UInt8 := [0xD3, 0xDB, 0xDD, 0xE3, 0xE4, 0xEB, 0xEC, 0xED, 0xF4, 0xFC, 0xFD]

end Dmg
