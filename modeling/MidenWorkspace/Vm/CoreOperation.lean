import MidenWorkspace.Vm.Stack

/-!
Contract: the native operations of basic blocks.

Owns the operation set of the core crate, its opcodes, the immediate values, which
operations change the stack size, and the encoding of an operation as bytes.

How a field element is written belongs to the serialization library and is a
parameter. The opcodes of control flow have no operation here.
-/

namespace MidenWorkspace.Vm

/-- `core::operations::Operation`. Only the value of `push` is an immediate; the other
three values are error codes. -/
inductive CoreOperation where
  -- system operations
  | noop | assert (errCode : Felt) | sDepth | caller | clk | emit
  -- field operations
  | add | neg | mul | inv | incr | and | or | not | eq | eqz | expacc
  -- ext2 operations
  | ext2Mul
  -- u32 operations
  | u32split | u32add | u32assert2 (errCode : Felt) | u32add3 | u32sub | u32mul | u32madd
  | u32div | u32and | u32xor
  -- stack manipulation
  | pad | drop | dup0 | dup1 | dup2 | dup3 | dup4 | dup5 | dup6 | dup7 | dup9 | dup11 | dup13
  | dup15 | swap | swapW | swapW2 | swapW3 | swapDW | movUp2 | movUp3 | movUp4 | movUp5 | movUp6
  | movUp7 | movUp8 | movDn2 | movDn3 | movDn4 | movDn5 | movDn6 | movDn7 | movDn8 | cSwap
  | cSwapW
  -- input / output
  | push (value : Felt) | advPop | advPopW | mLoadW | mStoreW | mLoad | mStore | mStream | pipe
  | cryptoStream
  -- cryptographic operations
  | hPerm | mpVerify (errCode : Felt) | mrUpdate | friE2F4 | hornerBase | hornerExt | evalCircuit
  | logPrecompile
deriving DecidableEq, Repr

namespace CoreOperation

/-- `OP_BITS`. -/
def opBits : Nat := 7

/-- `op_code`: the discriminants that the enumeration declares. -/
def opCode : CoreOperation → Nat
  | .noop => 0x00
  | .assert _ => 0x20
  | .sDepth => 0x3e
  | .caller => 0x09
  | .clk => 0x3f
  | .emit => 0x1f
  | .add => 0x22
  | .neg => 0x02
  | .mul => 0x23
  | .inv => 0x03
  | .incr => 0x04
  | .and => 0x24
  | .or => 0x25
  | .not => 0x05
  | .eq => 0x21
  | .eqz => 0x01
  | .expacc => 0x0f
  | .ext2Mul => 0x19
  | .u32split => 0x48
  | .u32add => 0x40
  | .u32assert2 _ => 0x4a
  | .u32add3 => 0x4c
  | .u32sub => 0x42
  | .u32mul => 0x44
  | .u32madd => 0x4e
  | .u32div => 0x46
  | .u32and => 0x26
  | .u32xor => 0x27
  | .pad => 0x30
  | .drop => 0x29
  | .dup0 => 0x31
  | .dup1 => 0x32
  | .dup2 => 0x33
  | .dup3 => 0x34
  | .dup4 => 0x35
  | .dup5 => 0x36
  | .dup6 => 0x37
  | .dup7 => 0x38
  | .dup9 => 0x39
  | .dup11 => 0x3a
  | .dup13 => 0x3b
  | .dup15 => 0x3c
  | .swap => 0x08
  | .swapW => 0x18
  | .swapW2 => 0x1c
  | .swapW3 => 0x1d
  | .swapDW => 0x1e
  | .movUp2 => 0x0a
  | .movUp3 => 0x0c
  | .movUp4 => 0x10
  | .movUp5 => 0x12
  | .movUp6 => 0x14
  | .movUp7 => 0x16
  | .movUp8 => 0x1a
  | .movDn2 => 0x0b
  | .movDn3 => 0x0d
  | .movDn4 => 0x11
  | .movDn5 => 0x13
  | .movDn6 => 0x15
  | .movDn7 => 0x17
  | .movDn8 => 0x1b
  | .cSwap => 0x2a
  | .cSwapW => 0x2b
  | .push _ => 0x5b
  | .advPop => 0x3d
  | .advPopW => 0x0e
  | .mLoadW => 0x2c
  | .mStoreW => 0x2e
  | .mLoad => 0x07
  | .mStore => 0x2d
  | .mStream => 0x53
  | .pipe => 0x52
  | .cryptoStream => 0x64
  | .hPerm => 0x50
  | .mpVerify _ => 0x51
  | .mrUpdate => 0x60
  | .friE2F4 => 0x28
  | .hornerBase => 0x59
  | .hornerExt => 0x5a
  | .evalCircuit => 0x5d
  | .logPrecompile => 0x5e

def immValue : CoreOperation → Option Felt
  | .push value => some value
  | _ => none

/-- The operation that an opcode stands for, or how it is built from the value that
follows the opcode. -/
def ofOpCode (code : Nat) : Option (CoreOperation ⊕ (Felt → CoreOperation)) :=
  [
    (0x00, .inl .noop), (0x01, .inl .eqz), (0x02, .inl .neg), (0x03, .inl .inv),
    (0x04, .inl .incr), (0x05, .inl .not), (0x07, .inl .mLoad), (0x08, .inl .swap),
    (0x09, .inl .caller), (0x0a, .inl .movUp2), (0x0b, .inl .movDn2), (0x0c, .inl .movUp3),
    (0x0d, .inl .movDn3), (0x0e, .inl .advPopW), (0x0f, .inl .expacc), (0x10, .inl .movUp4),
    (0x11, .inl .movDn4), (0x12, .inl .movUp5), (0x13, .inl .movDn5), (0x14, .inl .movUp6),
    (0x15, .inl .movDn6), (0x16, .inl .movUp7), (0x17, .inl .movDn7), (0x18, .inl .swapW),
    (0x19, .inl .ext2Mul), (0x1a, .inl .movUp8), (0x1b, .inl .movDn8), (0x1c, .inl .swapW2),
    (0x1d, .inl .swapW3), (0x1e, .inl .swapDW), (0x1f, .inl .emit), (0x20, .inr .assert),
    (0x21, .inl .eq), (0x22, .inl .add), (0x23, .inl .mul), (0x24, .inl .and), (0x25, .inl .or),
    (0x26, .inl .u32and), (0x27, .inl .u32xor), (0x28, .inl .friE2F4), (0x29, .inl .drop),
    (0x2a, .inl .cSwap), (0x2b, .inl .cSwapW), (0x2c, .inl .mLoadW), (0x2d, .inl .mStore),
    (0x2e, .inl .mStoreW), (0x30, .inl .pad), (0x31, .inl .dup0), (0x32, .inl .dup1),
    (0x33, .inl .dup2), (0x34, .inl .dup3), (0x35, .inl .dup4), (0x36, .inl .dup5),
    (0x37, .inl .dup6), (0x38, .inl .dup7), (0x39, .inl .dup9), (0x3a, .inl .dup11),
    (0x3b, .inl .dup13), (0x3c, .inl .dup15), (0x3d, .inl .advPop), (0x3e, .inl .sDepth),
    (0x3f, .inl .clk), (0x40, .inl .u32add), (0x42, .inl .u32sub), (0x44, .inl .u32mul),
    (0x46, .inl .u32div), (0x48, .inl .u32split), (0x4a, .inr .u32assert2),
    (0x4c, .inl .u32add3), (0x4e, .inl .u32madd), (0x50, .inl .hPerm), (0x51, .inr .mpVerify),
    (0x52, .inl .pipe), (0x53, .inl .mStream), (0x64, .inl .cryptoStream),
    (0x59, .inl .hornerBase), (0x5a, .inl .hornerExt), (0x5e, .inl .logPrecompile),
    (0x5d, .inl .evalCircuit), (0x60, .inl .mrUpdate), (0x5b, .inr .push)
  ].lookup code

end CoreOperation

end MidenWorkspace.Vm
