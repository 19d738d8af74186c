import ProjectOwl.Lib.Block

/-! # Register writes over the I2C bus

`bno055_I2C_bus_write` of `beagle/imu/bno_support.c`, of which
`beagle/imu/test.c` has a copy.  It gathers the register address and the payload
in an array and hands that to `write`.  The array has a cell for each byte of
the payload and none for the address, so the last store is outside for every
count.  The error text it prints is left out. -/

set_option autoImplicit false

namespace ProjectOwl.Beagle.Imu

def BNO055_INIT_VALUE : Int := 0
def BNO055_SUCCESS : Int := 0
def BNO055_ERROR : Int := -1

/-- What one call did: the array, how many of its bytes `write` was given, what
`write` returned, and the result. -/
structure BusWrite where
  array : Block UInt8
  handed : Nat
  accepted : Int
  result : Int

/-- The bytes `write` was given, `none` where none was stored. -/
def BusWrite.bytes (run : BusWrite) : List (Option UInt8) := run.array.cells run.handed

/-- `stringpos++` below the count does not wrap. -/
theorem toNat_stringpos_succ {stringpos cnt : UInt8} (below : stringpos < cnt) :
    (stringpos + 1).toNat = stringpos.toNat + 1 := by
  have order := UInt8.lt_iff_toNat_lt.mp below
  have bound := cnt.toNat_lt
  have sum : (stringpos + 1).toNat = (stringpos.toNat + 1) % 256 := UInt8.toNat_add stringpos 1
  rw [sum]
  apply Nat.mod_eq_of_lt
  omega

/-- The `for` loop from `stringpos` on. -/
def copyPayload (regData : Nat → UInt8) (cnt : UInt8) (array : Block UInt8) (stringpos : UInt8) :
    Block UInt8 :=
  if stringpos < cnt then
    copyPayload regData cnt (array.store (stringpos.toNat + 1) (regData stringpos.toNat))
      (stringpos + 1)
  else array
termination_by cnt.toNat - stringpos.toNat
decreasing_by
  rename_i below
  have order := UInt8.lt_iff_toNat_lt.mp below
  rw [toNat_stringpos_succ below]
  omega

def busWrite (write : List (Option UInt8) → Int) (_devAddr regAddr : UInt8)
    (regData : Nat → UInt8) (cnt : UInt8) : BusWrite :=
  let array := Block.alloc cnt.toNat
  let array := array.store 0 regAddr
  let array := copyPayload regData cnt array 0
  let handed := cnt.toNat + 1
  let accepted := write (array.cells handed)
  let result := if accepted ≠ handed then BNO055_ERROR else BNO055_INIT_VALUE
  ⟨array, handed, accepted, result⟩

namespace BnoSupport

def bno055I2cBusWrite : (List (Option UInt8) → Int) → UInt8 → UInt8 → (Nat → UInt8) → UInt8 →
    BusWrite := busWrite

end BnoSupport

namespace Test

def bno055I2cBusWrite : (List (Option UInt8) → Int) → UInt8 → UInt8 → (Nat → UInt8) → UInt8 →
    BusWrite := busWrite

end Test

/-- The two programs that carry a copy of the function. -/
inductive ImuProgram where
  | bnoSupport
  | test
  deriving DecidableEq, Repr

def ImuProgram.busWrite :
    ImuProgram → (List (Option UInt8) → Int) → UInt8 → UInt8 → (Nat → UInt8) → UInt8 → BusWrite
  | .bnoSupport => BnoSupport.bno055I2cBusWrite
  | .test => Test.bno055I2cBusWrite

theorem ImuProgram.busWrite_eq (program : ImuProgram) : program.busWrite = Imu.busWrite := by
  cases program <;> rfl

/-! ## The stores -/

/-- The `cnt` bytes at `reg_data`. -/
def payload (regData : Nat → UInt8) (cnt : UInt8) : List UInt8 :=
  (List.range cnt.toNat).map regData

@[simp] theorem payload_length (regData : Nat → UInt8) (cnt : UInt8) :
    (payload regData cnt).length = cnt.toNat := by
  simp [payload]

theorem copyPayload_eq (regData : Nat → UInt8) (cnt : UInt8) (array : Block UInt8)
    (stringpos : UInt8) :
    copyPayload regData cnt array stringpos =
      array.storeAll (stringpos.toNat + 1)
        ((List.range' stringpos.toNat (cnt.toNat - stringpos.toNat)).map regData) := by
  fun_induction copyPayload regData cnt array stringpos with
  | case1 array stringpos below ih =>
      have order := UInt8.lt_iff_toNat_lt.mp below
      have left : cnt.toNat - stringpos.toNat = cnt.toNat - (stringpos.toNat + 1) + 1 := by omega
      rw [ih, toNat_stringpos_succ below, left, List.range'_succ, List.map_cons]
      rfl
  | case2 array stringpos past =>
      have order : cnt.toNat ≤ stringpos.toNat := by
        rw [UInt8.lt_iff_toNat_lt] at past
        omega
      rw [Nat.sub_eq_zero_of_le order]
      rfl

section Call
variable (write : List (Option UInt8) → Int) (devAddr regAddr : UInt8) (regData : Nat → UInt8)
  (cnt : UInt8)

theorem busWrite_array :
    (busWrite write devAddr regAddr regData cnt).array =
      (Block.alloc cnt.toNat).storeAll 0 (regAddr :: payload regData cnt) := by
  have loop := copyPayload_eq regData cnt ((Block.alloc cnt.toNat).store 0 regAddr) 0
  have zero : (0 : UInt8).toNat = 0 := rfl
  rw [zero, Nat.sub_zero, ← List.range_eq_range'] at loop
  exact loop

/-- Whatever lies behind the array aside, `write` is given the address and then
the payload. -/
theorem busWrite_bytes :
    (busWrite write devAddr regAddr regData cnt).bytes =
      (regAddr :: payload regData cnt).map some := by
  have held := Block.cells_storeAll (Block.alloc cnt.toNat) (regAddr :: payload regData cnt)
  rw [List.length_cons, payload_length] at held
  rw [BusWrite.bytes, busWrite_array]
  exact held

theorem busWrite_success_iff :
    (busWrite write devAddr regAddr regData cnt).result = BNO055_SUCCESS ↔
      (busWrite write devAddr regAddr regData cnt).accepted = cnt.toNat + 1 := by
  have differ : BNO055_ERROR ≠ BNO055_SUCCESS := by decide
  have same : BNO055_INIT_VALUE = BNO055_SUCCESS := rfl
  simp only [busWrite, same, Int.natCast_add, Int.natCast_one]
  split
  · rename_i short
    exact iff_of_false differ short
  · rename_i full
    exact iff_of_true rfl (not_not.mp full)

/-- The stores of a call need one cell more than the payload has bytes. -/
theorem busWrite_inBounds_iff (size : Nat) :
    Block.InBounds { (busWrite write devAddr regAddr regData cnt).array with size := size } ↔
      cnt.toNat + 1 ≤ size := by
  rw [busWrite_array, Block.storeAll_size, Block.inBounds_storeAll]
  simp [Block.alloc, Block.InBounds]

end Call

/-! ## The contract of a register write -/

/-- The bytes at `reg_data` are stored behind the address, inside the array, and
the caller learns whether the bus took all of them. -/
structure RegisterWrite (run : BusWrite) (regAddr : UInt8) (data : List UInt8) : Prop where
  stores : run.array.InBounds
  inside : run.handed ≤ run.array.size
  bytes : run.bytes = (regAddr :: data).map some
  success : run.result = BNO055_SUCCESS ↔ run.accepted = data.length + 1

/-- The missing cell is all that stands in the way: with one more each call meets it. -/
theorem busWrite_registerWrite_of_cell (program : ImuProgram) (write : List (Option UInt8) → Int)
    (devAddr regAddr : UInt8) (regData : Nat → UInt8) (cnt : UInt8) :
    RegisterWrite
      { program.busWrite write devAddr regAddr regData cnt with
        array := { (program.busWrite write devAddr regAddr regData cnt).array with
          size := cnt.toNat + 1 } }
      regAddr (payload regData cnt) := by
  rw [ImuProgram.busWrite_eq]
  constructor
  · exact (busWrite_inBounds_iff write devAddr regAddr regData cnt _).mpr (Nat.le_refl _)
  · exact Nat.le_refl _
  · exact busWrite_bytes write devAddr regAddr regData cnt
  · rw [payload_length]
    exact busWrite_success_iff write devAddr regAddr regData cnt

/-- No call meets it: the last store and the last byte handed over are behind
the array. -/
theorem busWrite_not_registerWrite (program : ImuProgram) (write : List (Option UInt8) → Int)
    (devAddr regAddr : UInt8) (regData : Nat → UInt8) (cnt : UInt8) :
    ¬RegisterWrite (program.busWrite write devAddr regAddr regData cnt) regAddr
      (payload regData cnt) := by
  intro met
  have stored := met.stores
  rw [ImuProgram.busWrite_eq] at stored
  have size : (busWrite write devAddr regAddr regData cnt).array.size = cnt.toNat := by
    rw [busWrite_array, Block.size_storeAll, Block.size_alloc]
  have room : cnt.toNat + 1 ≤ (busWrite write devAddr regAddr regData cnt).array.size :=
    (busWrite_inBounds_iff write devAddr regAddr regData cnt _).mp stored
  rw [size] at room
  exact Nat.not_succ_le_self _ room

/-- `bno055_set_operation_mode(BNO055_OPERATION_MODE_NDOF)`: one byte for the
mode register, and two stores to an array of one cell. -/
theorem busWrite_mode_outside :
    ¬RegisterWrite
      (BnoSupport.bno055I2cBusWrite (fun bytes => bytes.length) 0x28 0x3D (fun _ => 0x0C) 1)
      0x3D [0x0C] := by
  intro met
  have array := busWrite_array (fun bytes => bytes.length) 0x28 0x3D (fun _ => 0x0C) 1
  have stored := met.stores
  unfold BnoSupport.bno055I2cBusWrite at stored
  rw [array] at stored
  exact absurd stored (by decide)

end ProjectOwl.Beagle.Imu
