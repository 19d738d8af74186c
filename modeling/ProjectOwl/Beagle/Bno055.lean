import ProjectOwl.Lib.Wp
import ProjectOwl.Beagle.ImuBus
import ProjectOwl.Beagle.World

/-! # The accelerometer driver

The functions of `beagle/imu/bno055.c` behind `beagle/imu/bno_support.c`, with one
setting of each kind: in page zero and in page one.  The device has two pages of
registers at the same addresses, and the driver remembers which one is selected.
A `Transfer` holds what the next call of the bus will give; the device may have
taken a byte of which the bus says that it failed.  The byte that is stored behind
the array of a write is taken to do no harm.  The configuration takes values in
config mode only. -/

set_option autoImplicit false

namespace ProjectOwl.Beagle.Imu

open Proc

def BNO055_E_NULL_PTR : Int := -127
def BNO055_OUT_OF_RANGE : Int := -2

def BNO055_PAGE_ZERO : UInt8 := 0x00
def BNO055_PAGE_ONE : UInt8 := 0x01

def BNO055_CHIP_ID_REG : UInt8 := 0x00
def BNO055_ACCEL_REV_ID_REG : UInt8 := 0x01
def BNO055_MAG_REV_ID_REG : UInt8 := 0x02
def BNO055_GYRO_REV_ID_REG : UInt8 := 0x03
def BNO055_SW_REV_ID_LSB_REG : UInt8 := 0x04
def BNO055_BL_REV_ID_REG : UInt8 := 0x06
def BNO055_PAGE_ID_REG : UInt8 := 0x07
def BNO055_ACCEL_DATA_X_LSB_VALUEX_REG : UInt8 := 0x08
def BNO055_ACCEL_DATA_Y_LSB_VALUEY_REG : UInt8 := 0x0A
def BNO055_ACCEL_DATA_Z_LSB_VALUEZ_REG : UInt8 := 0x0C
def BNO055_ACCEL_UNIT_REG : UInt8 := 0x3B
def BNO055_OPERATION_MODE_REG : UInt8 := 0x3D
/-- In page one. -/
def BNO055_ACCEL_RANGE_REG : UInt8 := 0x08

def BNO055_OPERATION_MODE_CONFIG : UInt8 := 0x00
def BNO055_OPERATION_MODE_NDOF : UInt8 := 0x0C
def BNO055_ACCEL_RANGE : UInt8 := 5
def BNO055_MODE_SWITCHING_DELAY : Nat := 600
def BNO055_CONFIG_MODE_SWITCHING_DELAY : Nat := 20
def BNO055_I2C_ADDR1 : UInt8 := 0x28

/-- The `_MSK` and `_POS` of a register's field. -/
structure BitName where
  msk : UInt8
  pos : UInt8

def BNO055_PAGE_ID : BitName := ⟨0xFF, 0⟩
def BNO055_OPERATION_MODE : BitName := ⟨0x0F, 0⟩
def BNO055_ACCEL_UNIT : BitName := ⟨0x01, 0⟩
def BNO055_ACCEL_RANGE_FIELD : BitName := ⟨0x03, 0⟩
def BNO055_DATA_BYTE : BitName := ⟨0xFF, 0⟩

def getBitslice (regvar : UInt8) (bitname : BitName) : UInt8 :=
  (regvar &&& bitname.msk) >>> bitname.pos

def setBitslice (regvar : UInt8) (bitname : BitName) (val : UInt8) : UInt8 :=
  (regvar &&& ~~~bitname.msk) ||| ((val <<< bitname.pos) &&& bitname.msk)

/-! ## The device -/

/-- The registers that the driver writes. -/
structure Device where
  pageId : UInt8
  oprMode : UInt8
  unitSel : UInt8
  accelConfig : UInt8
  deriving DecidableEq, Repr

def Device.mode (device : Device) : UInt8 := getBitslice device.oprMode BNO055_OPERATION_MODE

/-- `sensed` is what all other registers hold, by page and address. -/
def Device.register (device : Device) (sensed : UInt8 → UInt8 → UInt8) (addr : UInt8) : UInt8 :=
  if addr = BNO055_PAGE_ID_REG then device.pageId
  else if device.pageId = BNO055_PAGE_ZERO ∧ addr = BNO055_ACCEL_UNIT_REG then device.unitSel
  else if device.pageId = BNO055_PAGE_ZERO ∧ addr = BNO055_OPERATION_MODE_REG then device.oprMode
  else if device.pageId = BNO055_PAGE_ONE ∧ addr = BNO055_ACCEL_RANGE_REG then device.accelConfig
  else sensed device.pageId addr

def Device.store (device : Device) (addr value : UInt8) : Device :=
  if addr = BNO055_PAGE_ID_REG then { device with pageId := value }
  else if device.pageId = BNO055_PAGE_ZERO ∧ addr = BNO055_OPERATION_MODE_REG then
    { device with oprMode := value }
  else if device.mode ≠ BNO055_OPERATION_MODE_CONFIG then device
  else if device.pageId = BNO055_PAGE_ZERO ∧ addr = BNO055_ACCEL_UNIT_REG then
    { device with unitSel := value }
  else if device.pageId = BNO055_PAGE_ONE ∧ addr = BNO055_ACCEL_RANGE_REG then
    { device with accelConfig := value }
  else device

/-! ## The bus -/

/-- What `write` and `read` will return, and the registers at that time; `reaches` tells
by its register whether a byte is taken although `write` returns another count. -/
structure Transfer where
  written : Int
  read : Int
  sensed : UInt8 → UInt8 → UInt8
  reaches : UInt8 → Bool

inductive BusEvent where
  /-- A byte that the device took, and the state it took it in. -/
  | wrote (device : Device) (addr value : UInt8)
  | delay (msek : Nat)

/-- `struct bno055_t`. -/
structure Bno where
  chipId : UInt8
  swRevId : UInt16
  pageId : UInt8
  accelRevId : UInt8
  magRevId : UInt8
  gyroRevId : UInt8
  blRevId : UInt8
  devAddr : UInt8
  deriving DecidableEq, Repr

/-- `bno` is what `p_bno055` points to; `none` is the null pointer. -/
structure Bus where
  bno : Option Bno
  device : Device
  transfers : List Transfer
  trace : List BusEvent

/-- `bno055_I2C_bus_read`; a transfer that fails leaves `reg_data` as it was. -/
def busRead (regAddr : UInt8) (regData : List UInt8) : Proc Bus (Int × List UInt8) :=
  .step fun s =>
    match s.transfers with
    | [] => none
    | transfer :: rest =>
        let s := { s with transfers := rest }
        if transfer.written ≠ 1 then some ((BNO055_ERROR, regData), s)
        else if transfer.read ≠ regData.length then some ((BNO055_ERROR, regData), s)
        else
          let array := (List.range regData.length).map fun stringpos =>
            s.device.register transfer.sensed (regAddr + UInt8.ofNat stringpos)
          some ((BNO055_INIT_VALUE, array), s)

/-- `bno055_I2C_bus_write` of one byte; what `write` is given is `busWrite_bytes`. -/
def busWriteByte (regAddr value : UInt8) : Proc Bus Int :=
  .step fun s =>
    match s.transfers with
    | [] => none
    | transfer :: rest =>
        let s := { s with transfers := rest }
        let run := BnoSupport.bno055I2cBusWrite (fun _ => transfer.written) BNO055_I2C_ADDR1 regAddr
          (fun _ => value) 1
        if run.result = BNO055_SUCCESS ∨ transfer.reaches regAddr = true then
          some (run.result, { s with
            device := s.device.store regAddr value
            trace := s.trace ++ [.wrote s.device regAddr value] })
        else some (run.result, s)

def delayMsec (msek : Nat) : Proc Bus PUnit :=
  .modify fun s => { s with trace := s.trace ++ [.delay msek] }

def pBno055 : Proc Bus (Option Bno) := .step fun s => some (s.bno, s)

def assignBno (f : Bno → Bno) : Proc Bus PUnit := .modify fun s => { s with bno := s.bno.map f }

/-- A bus read of one byte into `data_u8r`. -/
def readByte (regAddr data : UInt8) : Proc Bus (Int × UInt8) := do
  let (comRslt, bytes) ← busRead regAddr [data]
  pure (comRslt, bytes.headD data)

/-! ## Pages -/

def bno055WriteRegister (addr value : UInt8) : Proc Bus Int := do
  match ← pBno055 with
  | none => pure BNO055_E_NULL_PTR
  | some _ => busWriteByte addr value

def bno055WritePageId (pageId : UInt8) : Proc Bus Int := do
  match ← pBno055 with
  | none => pure BNO055_E_NULL_PTR
  | some _ =>
      let (comRslt, data) ← readByte BNO055_PAGE_ID_REG 0
      if comRslt = BNO055_SUCCESS then
        let wrote ← busWriteByte BNO055_PAGE_ID_REG (setBitslice data BNO055_PAGE_ID pageId)
        if comRslt + wrote = BNO055_SUCCESS then
          assignBno fun bno => { bno with pageId }
        pure (comRslt + wrote)
      else pure BNO055_ERROR

/-- The start of the functions that read a register: `some` is the result of one
that ends there. -/
def selectPage (page : UInt8) : Proc Bus (Option Int) := do
  match ← pBno055 with
  | none => pure (some BNO055_E_NULL_PTR)
  | some bno =>
      let stat ← if bno.pageId ≠ page then bno055WritePageId page else pure BNO055_ERROR
      let selected := (← pBno055).any fun bno => bno.pageId = page
      if stat = BNO055_SUCCESS ∨ selected then pure none else pure (some BNO055_ERROR)

/-- The functions that read one field of a register; `value` is what the argument
points to. -/
def getField (page reg : UInt8) (bitname : BitName) (value : UInt8) : Proc Bus (Int × UInt8) := do
  match ← selectPage page with
  | some err => pure (err, value)
  | none =>
      let (comRslt, data) ← readByte reg 0
      pure (comRslt, getBitslice data bitname)

def bno055GetOperationMode : UInt8 → Proc Bus (Int × UInt8) :=
  getField BNO055_PAGE_ZERO BNO055_OPERATION_MODE_REG BNO055_OPERATION_MODE

def bno055GetAccelUnit : UInt8 → Proc Bus (Int × UInt8) :=
  getField BNO055_PAGE_ZERO BNO055_ACCEL_UNIT_REG BNO055_ACCEL_UNIT

def bno055GetAccelRange : UInt8 → Proc Bus (Int × UInt8) :=
  getField BNO055_PAGE_ONE BNO055_ACCEL_RANGE_REG BNO055_ACCEL_RANGE_FIELD

/-- Reads a register and writes it with a field changed, on the page that is selected;
gives what `data_u8r` holds then, too. -/
def changeField (busWrite : UInt8 → UInt8 → Proc Bus Int) (reg : UInt8) (bitname : BitName)
    (value data : UInt8) (msek : Option Nat) : Proc Bus (Int × UInt8) := do
  let (comRslt, data) ← readByte reg data
  if comRslt = BNO055_SUCCESS then
    let data := setBitslice data bitname value
    let wrote ← busWrite reg data
    msek.forM delayMsec
    pure (comRslt + wrote, data)
  else pure (comRslt, data)

/-! ## The operation mode -/

def changeMode (busWrite : UInt8 → UInt8 → Proc Bus Int) (operationMode data : UInt8)
    (msek : Nat) : Proc Bus (Int × UInt8) :=
  changeField busWrite BNO055_OPERATION_MODE_REG BNO055_OPERATION_MODE operationMode data (some msek)

def bno055SetOperationMode (operationMode : UInt8) : Proc Bus Int := do
  match ← pBno055 with
  | none => pure BNO055_E_NULL_PTR
  | some _ =>
      let (stat, prevOpmode) ← bno055GetOperationMode BNO055_OPERATION_MODE_CONFIG
      if stat ≠ BNO055_SUCCESS then pure BNO055_ERROR
      else if prevOpmode = BNO055_OPERATION_MODE_CONFIG then
        Prod.fst <$> changeMode busWriteByte operationMode 0 BNO055_MODE_SWITCHING_DELAY
      else
        let (comRslt, data) ← changeMode bno055WriteRegister BNO055_OPERATION_MODE_CONFIG 0
          BNO055_CONFIG_MODE_SWITCHING_DELAY
        if operationMode = BNO055_OPERATION_MODE_CONFIG then pure comRslt
        -- what the change to config mode returned is lost here
        else Prod.fst <$> changeMode busWriteByte operationMode data BNO055_MODE_SWITCHING_DELAY

/-- What the functions that change a setting do before they switch back. -/
def changeInConfig (change : Proc Bus Int) (stat : Int) (prevOpmode : UInt8) : Proc Bus Int :=
  if stat = BNO055_SUCCESS then do
    let switched ← switchToConfig prevOpmode
    if stat + switched = BNO055_SUCCESS then change else pure BNO055_ERROR
  else pure BNO055_ERROR
where
  switchToConfig (prevOpmode : UInt8) : Proc Bus Int :=
    if prevOpmode ≠ BNO055_OPERATION_MODE_CONFIG then
      bno055SetOperationMode BNO055_OPERATION_MODE_CONFIG
    else pure BNO055_SUCCESS

/-- The functions that change a setting: in config mode, and back to the mode before. -/
def setConfigured (change : Proc Bus Int) : Proc Bus Int := do
  match ← pBno055 with
  | none => pure BNO055_E_NULL_PTR
  | some _ =>
      let (stat, prevOpmode) ← bno055GetOperationMode BNO055_OPERATION_MODE_CONFIG
      let comRslt ← changeInConfig change stat prevOpmode
      if prevOpmode ≠ BNO055_OPERATION_MODE_CONFIG then
        let restored ← bno055SetOperationMode prevOpmode
        pure (comRslt + restored)
      else pure comRslt

def bno055SetAccelUnit (accelUnit : UInt8) : Proc Bus Int :=
  setConfigured
    (Prod.fst <$> changeField busWriteByte BNO055_ACCEL_UNIT_REG BNO055_ACCEL_UNIT accelUnit 0 none)

def bno055SetAccelRange (accelRange : UInt8) : Proc Bus Int :=
  setConfigured do
    let pgStat ← bno055WritePageId BNO055_PAGE_ONE
    if pgStat = BNO055_SUCCESS then
      if accelRange < BNO055_ACCEL_RANGE then
        Prod.fst <$> changeField busWriteByte BNO055_ACCEL_RANGE_REG BNO055_ACCEL_RANGE_FIELD
          accelRange 0 none
      else pure BNO055_OUT_OF_RANGE
    else pure BNO055_ERROR

/-! ## The acceleration -/

/-- `(s16)(((s32)(s8)msb << 8) | lsb)`. -/
def sensorData (lsb msb : UInt8) : Int16 :=
  ((getBitslice msb BNO055_DATA_BYTE).toInt8.toInt32 <<< 8 |||
    (getBitslice lsb BNO055_DATA_BYTE).toUInt32.toInt32).toInt16

/-- The functions that read one axis; `value` is what the argument points to. -/
def readAccel (reg : UInt8) (value : Int16) : Proc Bus (Int × Int16) := do
  match ← selectPage BNO055_PAGE_ZERO with
  | some err => pure (err, value)
  | none =>
      let (comRslt, data) ← busRead reg [0, 0]
      pure (comRslt, sensorData (data.getD 0 0) (data.getD 1 0))

def bno055ReadAccelX : Int16 → Proc Bus (Int × Int16) := readAccel BNO055_ACCEL_DATA_X_LSB_VALUEX_REG
def bno055ReadAccelY : Int16 → Proc Bus (Int × Int16) := readAccel BNO055_ACCEL_DATA_Y_LSB_VALUEY_REG
def bno055ReadAccelZ : Int16 → Proc Bus (Int × Int16) := readAccel BNO055_ACCEL_DATA_Z_LSB_VALUEZ_REG

/-- What `bno055_read_accel_norm` and `bno055_read_accel` compute on; the results of
the three calls are not looked at. -/
def readAccelRaw : Proc Bus RawAccel := do
  let (_, x) ← bno055ReadAccelX 0
  let (_, y) ← bno055ReadAccelY 0
  let (_, z) ← bno055ReadAccelZ 0
  pure ⟨x, y, z⟩

/-! ## Setting up -/

/-- One byte is read and kept in the structure, whatever came of the read. -/
def readInto (assign : UInt8 → Bno → Bno) (reg data : UInt8) : Proc Bus (Int × UInt8) := do
  let (result, data) ← readByte reg data
  assignBno (assign data)
  pure (result, data)

/-- `bno055_init` from the reading of the identifiers on. -/
def readIds (comRslt : Int) : Proc Bus Int := do
  let (chip, data) ← readInto (fun data bno => { bno with chipId := data }) BNO055_CHIP_ID_REG 0
  let (accel, data) ←
    readInto (fun data bno => { bno with accelRevId := data }) BNO055_ACCEL_REV_ID_REG data
  let (mag, data) ←
    readInto (fun data bno => { bno with magRevId := data }) BNO055_MAG_REV_ID_REG data
  let (gyro, data) ←
    readInto (fun data bno => { bno with gyroRevId := data }) BNO055_GYRO_REV_ID_REG data
  let (bl, data) ←
    readInto (fun data bno => { bno with blRevId := data }) BNO055_BL_REV_ID_REG data
  let (sw, swId) ← busRead BNO055_SW_REV_ID_LSB_REG [0, 0]
  assignBno fun bno => { bno with
    swRevId := (swId.getD 1 0).toUInt16 <<< 8 ||| (getBitslice (swId.getD 0 0) BNO055_DATA_BYTE).toUInt16 }
  let (page, _) ← readInto (fun data bno => { bno with pageId := data }) BNO055_PAGE_ID_REG data
  pure (comRslt + chip + accel + mag + gyro + bl + sw + page)

def bno055Init (bno : Bno) : Proc Bus Int := do
  .modify fun s => { s with bno := some bno }
  let comRslt ← busWriteByte BNO055_PAGE_ID_REG BNO055_PAGE_ZERO
  readIds comRslt

/-- `imu_init` once the bus is open; the results of both calls are not looked at. -/
def imuInit (bno : Bno) : Proc Bus Int := do
  let _ ← bno055Init { bno with devAddr := BNO055_I2C_ADDR1 }
  let _ ← bno055SetOperationMode BNO055_OPERATION_MODE_NDOF
  pure BNO055_SUCCESS

end ProjectOwl.Beagle.Imu
