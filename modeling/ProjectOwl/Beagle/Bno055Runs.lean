import ProjectOwl.Beagle.Bno055

/-! # Runs of the accelerometer driver

Once `bno055_init` has learnt which page is selected, the driver's idea of it holds in
every run, however the transfers fail, as long as no page is taken that the bus says
was not.  Each register is then read and written in its own page, and settings in
config mode only.  A call that reports success has done its work. -/

set_option autoImplicit false

namespace ProjectOwl.Beagle.Imu

open Proc

/-! ## Bits -/

theorem getBitslice_page (x : UInt8) : getBitslice x BNO055_PAGE_ID = x := by
  unfold getBitslice BNO055_PAGE_ID
  apply UInt8.toBitVec_inj.mp
  simp only [UInt8.toBitVec_shiftRight, UInt8.toBitVec_and]
  exact BitVec.and_allOnes

theorem getBitslice_byte (x : UInt8) : getBitslice x BNO055_DATA_BYTE = x := getBitslice_page x

theorem setBitslice_page (old page : UInt8) : setBitslice old BNO055_PAGE_ID page = page := by
  have none : ~~~(0xFF : UInt8) = 0 := by decide
  have whole := getBitslice_page page
  unfold getBitslice BNO055_PAGE_ID at whole
  simp only [UInt8.shiftRight_zero] at whole
  unfold setBitslice BNO055_PAGE_ID
  simp only [none, UInt8.and_zero, UInt8.zero_or, UInt8.shiftLeft_zero, whole]

/-- A field that has been set, for the fields that begin with the lowest bit. -/
theorem getBitslice_setBitslice (old value msk : UInt8) :
    getBitslice (setBitslice old ⟨msk, 0⟩ value) ⟨msk, 0⟩ = value &&& msk := by
  unfold getBitslice setBitslice
  simp only [UInt8.shiftLeft_zero, UInt8.shiftRight_zero]
  apply UInt8.toBitVec_inj.mp
  simp only [UInt8.toBitVec_and, UInt8.toBitVec_or, UInt8.toBitVec_not]
  ext i inside
  simp only [BitVec.getElem_and, BitVec.getElem_or, BitVec.getElem_not]
  grind

/-- The two bytes of a signed number, the low one first. -/
theorem sensorData_eq (lsb msb : UInt8) :
    sensorData lsb msb = Int16.ofBitVec (msb.toBitVec ++ lsb.toBitVec) := by
  unfold sensorData
  rw [getBitslice_byte, getBitslice_byte]
  apply Int16.toBitVec_inj.mp
  apply BitVec.eq_of_getLsbD_eq
  intro i inside
  have split : (msb.toBitVec ++ lsb.toBitVec).getLsbD i =
      if i < 8 then lsb.toBitVec.getLsbD i else msb.toBitVec.getLsbD (i - 8) :=
    BitVec.getLsbD_append
  have small : i < 32 := by omega
  change _ = (msb.toBitVec ++ lsb.toBitVec).getLsbD i
  rw [split]
  split
  · rename_i low
    simp [BitVec.getElem_signExtend, low, small, inside]
  · rename_i high
    have index : i - 8 < 8 := by omega
    have beyond : lsb.toBitVec.getLsbD i = false := BitVec.getLsbD_of_ge _ _ (by omega)
    simp [BitVec.getElem_signExtend, high, small, index, inside, beyond]

theorem error_neg : BNO055_ERROR < 0 := by decide

/-! ## The calls of the bus -/

section BusCalls
variable {s : Bus} {halt : Bus → Prop}

/-- A read of so many bytes that is complete. -/
def Transfer.Reads (transfer : Transfer) (cnt : Nat) : Prop :=
  transfer.written = 1 ∧ transfer.read = cnt

theorem suffix_of_next {transfer : Transfer} {rest : List Transfer}
    (next : s.transfers = transfer :: rest) : rest <:+ s.transfers :=
  next ▸ List.suffix_cons transfer rest

theorem wp_busRead {reg : UInt8} {data : List UInt8} {post : Int × List UInt8 → Bus → Prop}
    (cut : halt s)
    (fails : ∀ transfer rest, s.transfers = transfer :: rest → ¬transfer.Reads data.length →
      post (BNO055_ERROR, data) { s with transfers := rest })
    (reads : ∀ transfer rest, s.transfers = transfer :: rest →
      post (BNO055_SUCCESS, (List.range data.length).map fun stringpos =>
        s.device.register transfer.sensed (reg + UInt8.ofNat stringpos))
          { s with transfers := rest }) :
    Wp (busRead reg data) post halt s := by
  rw [busRead, wp_step]
  refine ⟨fun _ => cut, ?_⟩
  rintro ⟨result, bytes⟩ t ran
  cases script : s.transfers with
  | nil => simp [script] at ran
  | cons transfer rest =>
      simp only [script] at ran
      split at ran
      · rename_i short
        obtain ⟨⟨rfl, rfl⟩, rfl⟩ := by simpa using ran
        exact fails transfer rest script fun whole => short whole.1
      · split at ran
        · rename_i short
          obtain ⟨⟨rfl, rfl⟩, rfl⟩ := by simpa using ran
          exact fails transfer rest script fun whole => short whole.2
        · have same := Option.some.inj ran
          rw [← (Prod.mk.inj same).1, ← (Prod.mk.inj same).2]
          exact reads transfer rest script

theorem wp_readByte {reg data : UInt8} {post : Int × UInt8 → Bus → Prop}
    (cut : halt s)
    (fails : ∀ transfer rest, s.transfers = transfer :: rest → ¬transfer.Reads 1 →
      post (BNO055_ERROR, data) { s with transfers := rest })
    (reads : ∀ transfer rest, s.transfers = transfer :: rest →
      post (BNO055_SUCCESS, s.device.register transfer.sensed reg) { s with transfers := rest }) :
    Wp (readByte reg data) post halt s := by
  rw [readByte, wp_bind]
  refine wp_busRead cut fails ?_
  intro transfer rest script
  have one : (List.range 1).map (fun stringpos =>
      s.device.register transfer.sensed (reg + UInt8.ofNat stringpos)) =
        [s.device.register transfer.sensed reg] := by
    have zero : UInt8.ofNat 0 = 0 := rfl
    simp [List.range_succ, zero]
  rw [List.length_singleton, one, wp_pure]
  exact reads transfer rest script

/-- The state once a byte has been taken. -/
def Bus.stored (s : Bus) (rest : List Transfer) (reg value : UInt8) : Bus :=
  { s with
    transfers := rest
    device := s.device.store reg value
    trace := s.trace ++ [.wrote s.device reg value] }

/-- The result tells only whether `write` took both bytes. -/
theorem busWriteByte_result (written : Int) (reg value : UInt8) :
    (BnoSupport.bno055I2cBusWrite (fun _ => written) BNO055_I2C_ADDR1 reg (fun _ => value) 1).result =
      if written = 2 then BNO055_SUCCESS else BNO055_ERROR := by
  by_cases both : written = 2
  · rw [if_pos both]
    exact (busWrite_success_iff (fun _ => written) BNO055_I2C_ADDR1 reg (fun _ => value) 1).mpr both
  · rw [if_neg both]
    exact if_pos both

theorem wp_busWriteByte {reg value : UInt8} {post : Int → Bus → Prop} (cut : halt s)
    (fails : ∀ transfer rest, s.transfers = transfer :: rest → transfer.written ≠ 2 →
      post BNO055_ERROR { s with transfers := rest })
    (reaches : ∀ transfer rest, s.transfers = transfer :: rest → transfer.reaches reg = true →
      post BNO055_ERROR (s.stored rest reg value))
    (takes : ∀ transfer rest, s.transfers = transfer :: rest →
      post BNO055_SUCCESS (s.stored rest reg value)) :
    Wp (busWriteByte reg value) post halt s := by
  rw [busWriteByte, wp_step]
  refine ⟨fun _ => cut, ?_⟩
  intro result t ran
  cases script : s.transfers with
  | nil => simp [script] at ran
  | cons transfer rest =>
      simp only [script, busWriteByte_result] at ran
      by_cases both : transfer.written = 2
      · rw [if_pos both, if_pos (Or.inl rfl)] at ran
        have same := Option.some.inj ran
        rw [← (Prod.mk.inj same).1, ← (Prod.mk.inj same).2]
        exact takes transfer rest script
      · rw [if_neg both] at ran
        split at ran
        · rename_i taken
          have same := Option.some.inj ran
          rw [← (Prod.mk.inj same).1, ← (Prod.mk.inj same).2]
          exact reaches transfer rest script (taken.resolve_left (by decide))
        · have same := Option.some.inj ran
          rw [← (Prod.mk.inj same).1, ← (Prod.mk.inj same).2]
          exact fails transfer rest script both

@[simp] theorem wp_pBno055 {post : Option Bno → Bus → Prop} :
    Wp pBno055 post halt s ↔ post s.bno s := Iff.rfl

@[simp] theorem wp_assignBno {post : PUnit → Bus → Prop} (f : Bno → Bno) :
    Wp (assignBno f) post halt s ↔ post ⟨⟩ { s with bno := s.bno.map f } := Iff.rfl

@[simp] theorem wp_delayMsec {post : PUnit → Bus → Prop} (msek : Nat) :
    Wp (delayMsec msek) post halt s ↔
      post ⟨⟩ { s with trace := s.trace ++ [.delay msek] } := Iff.rfl

end BusCalls

/-! ## What holds at all times -/

/-- The driver knows the page, or the device is in page zero and the driver takes it
for a page that there is not. -/
def Knows (s : Bus) : Prop :=
  ∀ bno, s.bno = some bno → bno.pageId = s.device.pageId ∨
    (s.device.pageId = BNO055_PAGE_ZERO ∧ bno.pageId ≠ BNO055_PAGE_ONE)

/-- A register that was written in its own page, and a setting in config mode. -/
def Proper : BusEvent → Prop
  | .wrote device addr _ =>
      addr = BNO055_PAGE_ID_REG ∨
      (device.pageId = BNO055_PAGE_ZERO ∧ addr = BNO055_OPERATION_MODE_REG) ∨
      (device.mode = BNO055_OPERATION_MODE_CONFIG ∧
        ((device.pageId = BNO055_PAGE_ZERO ∧ addr = BNO055_ACCEL_UNIT_REG) ∨
          (device.pageId = BNO055_PAGE_ONE ∧ addr = BNO055_ACCEL_RANGE_REG)))
  | .delay _ => True

def Bus.Tidy (s : Bus) : Prop := ∀ event ∈ s.trace, Proper event

/-- No write of the page is taken by the device and reported as failed. -/
def Candid (script : List Transfer) : Prop :=
  ∀ transfer ∈ script, transfer.reaches BNO055_PAGE_ID_REG = false

structure Good (script : List Transfer) (s : Bus) : Prop where
  left : s.transfers <:+ script
  candid : Candid script
  knows : Knows s
  proper : s.Tidy

section Good
variable {script : List Transfer} {s : Bus}

theorem Good.spend (good : Good script s) {rest : List Transfer} (left : rest <:+ s.transfers) :
    Good script { s with transfers := rest } :=
  ⟨left.trans good.left, good.candid, good.knows, good.proper⟩

theorem Good.mem_of_next (good : Good script s) {transfer : Transfer} {rest : List Transfer}
    (next : s.transfers = transfer :: rest) : transfer ∈ script :=
  good.left.subset (next ▸ List.mem_cons_self)

theorem Bus.Tidy.snoc (tidy : s.Tidy) {event : BusEvent} (proper : Proper event) :
    ∀ e ∈ s.trace ++ [event], Proper e := by
  intro e member
  rcases List.mem_append.mp member with before | new
  · exact tidy e before
  · rw [List.mem_singleton.mp new]
    exact proper

theorem Good.delay (good : Good script s) (msek : Nat) :
    Good script { s with trace := s.trace ++ [.delay msek] } :=
  ⟨good.left, good.candid, good.knows, good.proper.snoc trivial⟩

theorem Good.stored (good : Good script s) {rest : List Transfer} (left : rest <:+ s.transfers)
    {reg value : UInt8}
    (proper : Proper (.wrote s.device reg value))
    (page : (s.device.store reg value).pageId = s.device.pageId) :
    Good script (s.stored rest reg value) := by
  refine ⟨left.trans good.left, good.candid, fun bno held => ?_, good.proper.snoc proper⟩
  rw [Bus.stored, page]
  exact good.knows bno held

/-- The settings are the same; the page may be another one. -/
def Device.Still (before after : Device) : Prop :=
  after.oprMode = before.oprMode ∧ after.unitSel = before.unitSel ∧
    after.accelConfig = before.accelConfig

theorem Device.Still.refl (device : Device) : device.Still device := ⟨rfl, rfl, rfl⟩

theorem Device.Still.trans {a b c : Device} (first : a.Still b) (second : b.Still c) : a.Still c :=
  ⟨second.1.trans first.1, second.2.1.trans first.2.1, second.2.2.trans first.2.2⟩

theorem store_page (device : Device) (value : UInt8) :
    device.store BNO055_PAGE_ID_REG value = { device with pageId := value } := if_pos rfl

/-- After the write of a page that succeeded, the driver and the device agree on it. -/
theorem wp_bno055WritePageId (good : Good script s) (page : UInt8) :
    Wp (bno055WritePageId page) (fun result t => Good script t ∧ s.device.Still t.device ∧
      (result = BNO055_SUCCESS ∧ t.device.pageId = page ∨ result < 0)) (Good script) s := by
  rw [bno055WritePageId, wp_bind, wp_pBno055]
  cases held : s.bno with
  | none => exact ⟨good, .refl _, Or.inr (by decide)⟩
  | some bno =>
      dsimp only
      rw [wp_bind]
      refine wp_readByte good (fun transfer rest next _ => ?_) fun transfer rest next => ?_
      · dsimp only
        rw [if_neg (by decide), wp_pure]
        exact ⟨good.spend (suffix_of_next next), .refl _, Or.inr error_neg⟩
      · dsimp only
        rw [if_pos rfl, setBitslice_page, wp_bind]
        have read := good.spend (suffix_of_next next)
        refine wp_busWriteByte read (fun _ rest' next' _ => ?_) (fun _ rest' next' reached => ?_)
          fun _ rest' next' => ?_
        · rw [if_neg (by decide), wp_pure]
          exact ⟨read.spend (suffix_of_next next'), .refl _, Or.inr (by decide)⟩
        · have unreached := good.candid _ (read.mem_of_next next')
          rw [unreached] at reached
          cases reached
        · rw [if_pos (by decide), wp_bind, wp_assignBno, wp_pure]
          refine ⟨⟨(suffix_of_next next').trans read.left, good.candid,
            fun after renamed => Or.inl ?_, read.proper.snoc (Or.inl rfl)⟩, ?_,
            Or.inl ⟨by decide, ?_⟩⟩
          · obtain ⟨before, -, rfl⟩ := Option.map_eq_some_iff.mp renamed
            simp only [Bus.stored, store_page]
          · simp only [Bus.stored, store_page]
            exact .refl _
          · simp only [Bus.stored, store_page]

/-- The page the driver takes for selected is selected. -/
theorem Good.page_of_any (good : Good script s) {page : UInt8}
    (known : page = BNO055_PAGE_ZERO ∨ page = BNO055_PAGE_ONE)
    (selected : (s.bno.any fun bno => bno.pageId = page) = true) : s.device.pageId = page := by
  cases held : s.bno with
  | none => simp [held] at selected
  | some bno =>
      have same : bno.pageId = page := by simpa [held] using selected
      rcases good.knows bno held with agrees | ⟨zero, notOne⟩
      · exact agrees.symm.trans same
      · rcases known with rfl | rfl
        · exact zero
        · exact absurd same notOne

theorem wp_selectPage (good : Good script s) {page : UInt8}
    (known : page = BNO055_PAGE_ZERO ∨ page = BNO055_PAGE_ONE) :
    Wp (selectPage page) (fun ended t => Good script t ∧ s.device.Still t.device ∧
      (∀ err, ended = some err → err < 0) ∧
      (ended = none → t.device.pageId = page)) (Good script) s := by
  have failed : ∀ err, some BNO055_ERROR = some err → err < 0 := by
    rintro err ⟨⟩
    decide
  have rest : ∀ (stat : Int) (t : Bus), Good script t → s.device.Still t.device →
      (stat = BNO055_SUCCESS ∧ t.device.pageId = page ∨ stat < 0) →
      Wp (do
        let bno ← pBno055
        if stat = BNO055_SUCCESS ∨ (bno.any fun bno => bno.pageId = page) = true then pure none
        else pure (some BNO055_ERROR))
        (fun ended t => Good script t ∧ s.device.Still t.device ∧
          (∀ err, ended = some err → err < 0) ∧
          (ended = none → t.device.pageId = page)) (Good script) t := by
    intro stat t goodToo still written
    rw [wp_bind, wp_pBno055]
    split
    · rename_i selected
      rw [wp_pure]
      refine ⟨goodToo, still, by simp, fun _ => ?_⟩
      rcases selected with success | taken
      · rcases written with ⟨-, onPage⟩ | below
        · exact onPage
        · exact absurd success (ne_of_lt below)
      · exact goodToo.page_of_any known taken
    · rw [wp_pure]
      exact ⟨goodToo, still, failed, by simp⟩
  rw [selectPage, wp_bind, wp_pBno055]
  cases held : s.bno with
  | none =>
      refine ⟨good, .refl _, ?_, by simp⟩
      rintro err ⟨⟩
      decide
  | some bno =>
      dsimp only
      by_cases other : bno.pageId ≠ page
      · rw [if_pos other, wp_bind]
        refine wp_mono (wp_bno055WritePageId good page) ?_ fun _ kept => kept
        rintro stat t ⟨goodToo, still, written⟩
        exact rest stat t goodToo still written
      · rw [if_neg other, pure_bind]
        exact rest _ s good (.refl _) (Or.inr error_neg)

/-- A field that was read is the one in the device. -/
theorem wp_getField (good : Good script s) {page : UInt8}
    (known : page = BNO055_PAGE_ZERO ∨ page = BNO055_PAGE_ONE) (reg : UInt8) (bitname : BitName)
    (value : UInt8) :
    Wp (getField page reg bitname value) (fun got t => Good script t ∧ s.device.Still t.device ∧
      ((got.1 = BNO055_SUCCESS ∧ t.device.pageId = page ∧
          ∃ sensed, got.2 = getBitslice (t.device.register sensed reg) bitname) ∨
        (got.1 < 0 ∧ (got.2 = value ∨ got.2 = getBitslice 0 bitname)))) (Good script) s := by
  rw [getField, wp_bind]
  refine wp_mono (wp_selectPage good known) ?_ fun _ kept => kept
  rintro ended t ⟨goodToo, still, errs, selected⟩
  cases ended with
  | some err => exact ⟨goodToo, still, Or.inr ⟨errs err rfl, Or.inl rfl⟩⟩
  | none =>
      dsimp only
      rw [wp_bind]
      refine wp_readByte goodToo (fun transfer rest next _ => ?_) fun transfer rest next => ?_
      · exact ⟨goodToo.spend (suffix_of_next next), still, Or.inr ⟨error_neg, Or.inr rfl⟩⟩
      · exact ⟨goodToo.spend (suffix_of_next next), still,
          Or.inl ⟨rfl, selected rfl, transfer.sensed, rfl⟩⟩

/-! ## Changing a field -/

/-- The functions a byte is written with: they may report that they failed although the
device took it. -/
def Writes (busWrite : UInt8 → UInt8 → Proc Bus Int) : Prop :=
  ∀ (s : Bus) (reg value : UInt8) (post : Int → Bus → Prop) (halt : Bus → Prop), halt s →
    (∀ err rest, rest <:+ s.transfers → err < 0 → post err { s with transfers := rest }) →
    (∀ result rest, rest <:+ s.transfers → result = BNO055_SUCCESS ∨ result < 0 →
      post result (s.stored rest reg value)) →
    Wp (busWrite reg value) post halt s

theorem writes_busWriteByte : Writes busWriteByte := fun _ _ _ _ _ cut fails takes =>
  wp_busWriteByte cut (fun _ rest next _ => fails _ rest (suffix_of_next next) error_neg)
    (fun _ rest next _ => takes _ rest (suffix_of_next next) (Or.inr error_neg))
    fun _ rest next => takes _ rest (suffix_of_next next) (Or.inl rfl)

theorem writes_bno055WriteRegister : Writes bno055WriteRegister := by
  intro s reg value post halt cut fails takes
  rw [bno055WriteRegister, wp_bind, wp_pBno055]
  cases s.bno with
  | none => exact fails _ s.transfers (List.suffix_refl _) (by decide)
  | some bno => exact writes_busWriteByte s reg value post halt cut fails takes

/-- The field of a register has its new value. -/
def Device.Changed (before : Device) (reg : UInt8) (bitname : BitName) (value : UInt8)
    (after : Device) : Prop :=
  ∃ sensed, after = before.store reg (setBitslice (before.register sensed reg) bitname value)

/-- A field is changed in the device, or nothing is. -/
theorem wp_changeField (good : Good script s) {busWrite : UInt8 → UInt8 → Proc Bus Int}
    (writes : Writes busWrite) {reg : UInt8} (bitname : BitName) (value data : UInt8)
    (msek : Option Nat) (proper : ∀ byte, Proper (.wrote s.device reg byte))
    (page : ∀ byte, (s.device.store reg byte).pageId = s.device.pageId) :
    Wp (changeField busWrite reg bitname value data msek) (fun got t => Good script t ∧
      ((got.1 < 0 ∧ t.device = s.device) ∨
        ((got.1 = BNO055_SUCCESS ∨ got.1 < 0) ∧ s.device.Changed reg bitname value t.device)))
      (Good script) s := by
  rw [changeField, wp_bind]
  refine wp_readByte good (fun transfer rest next _ => ?_) fun transfer rest next => ?_
  · exact ⟨good.spend (suffix_of_next next), Or.inl ⟨error_neg, rfl⟩⟩
  · have read := good.spend (suffix_of_next next)
    dsimp only
    rw [if_pos rfl, wp_bind]
    have after : ∀ (wrote : Int) (t : Bus), Good script t →
        ((wrote < 0 ∧ t.device = s.device) ∨
          ((wrote = BNO055_SUCCESS ∨ wrote < 0) ∧
            s.device.Changed reg bitname value t.device)) →
        Wp (do
          msek.forM delayMsec
          pure (BNO055_SUCCESS + wrote,
            setBitslice (s.device.register transfer.sensed reg) bitname value))
          (fun got t => Good script t ∧ ((got.1 < 0 ∧ t.device = s.device) ∨
            ((got.1 = BNO055_SUCCESS ∨ got.1 < 0) ∧
              s.device.Changed reg bitname value t.device))) (Good script) t := by
      intro wrote t goodToo outcome
      have zero : BNO055_SUCCESS + wrote = wrote := Int.zero_add wrote
      rw [zero]
      cases msek with
      | none => exact ⟨goodToo, outcome⟩
      | some msek => exact ⟨goodToo.delay msek, outcome⟩
    refine writes _ _ _ _ _ read (fun err rest' left failed => ?_) fun result rest' left told => ?_
    · exact after err _ (read.spend left) (Or.inl ⟨failed, rfl⟩)
    · exact after result _ (read.stored left (proper _) (page _))
        (Or.inr ⟨told, transfer.sensed, rfl⟩)

/-! ## The operation mode -/

theorem register_mode {device : Device} (zero : device.pageId = BNO055_PAGE_ZERO)
    (sensed : UInt8 → UInt8 → UInt8) :
    device.register sensed BNO055_OPERATION_MODE_REG = device.oprMode := by
  unfold Device.register
  rw [if_neg (by decide), if_neg (by rintro ⟨-, same⟩; exact absurd same (by decide)),
    if_pos ⟨zero, rfl⟩]

theorem store_mode {device : Device} (zero : device.pageId = BNO055_PAGE_ZERO) (value : UInt8) :
    device.store BNO055_OPERATION_MODE_REG value = { device with oprMode := value } := by
  unfold Device.store
  rw [if_neg (by decide), if_pos ⟨zero, rfl⟩]

theorem mode_set (device : Device) (old value : UInt8) :
    Device.mode { device with oprMode := setBitslice old BNO055_OPERATION_MODE value } =
      value &&& 0x0F :=
  getBitslice_setBitslice old value 0x0F

/-- The other settings are the same. -/
def Device.SameSettings (before after : Device) : Prop :=
  after.unitSel = before.unitSel ∧ after.accelConfig = before.accelConfig

theorem Device.SameSettings.trans {a b c : Device} (first : a.SameSettings b)
    (second : b.SameSettings c) : a.SameSettings c :=
  ⟨second.1.trans first.1, second.2.trans first.2⟩

theorem wp_changeMode (good : Good script s) (zero : s.device.pageId = BNO055_PAGE_ZERO)
    {busWrite : UInt8 → UInt8 → Proc Bus Int} (writes : Writes busWrite)
    (operationMode data : UInt8) (msek : Nat) :
    Wp (changeMode busWrite operationMode data msek) (fun got t => Good script t ∧
      t.device.pageId = BNO055_PAGE_ZERO ∧ s.device.SameSettings t.device ∧
      ((got.1 < 0 ∧ t.device.mode = s.device.mode) ∨
        ((got.1 = BNO055_SUCCESS ∨ got.1 < 0) ∧ t.device.mode = operationMode &&& 0x0F)))
      (Good script) s := by
  have page : ∀ byte, (s.device.store BNO055_OPERATION_MODE_REG byte).pageId = s.device.pageId := by
    intro byte
    rw [store_mode zero]
  refine wp_mono (wp_changeField good writes BNO055_OPERATION_MODE operationMode data (some msek)
    (fun _ => Or.inr (Or.inl ⟨zero, rfl⟩)) page) ?_ fun _ kept => kept
  rintro got t ⟨goodToo, ⟨failed, same⟩ | ⟨told, sensed, stored⟩⟩
  · exact ⟨goodToo, same ▸ zero, same ▸ ⟨rfl, rfl⟩, Or.inl ⟨failed, congrArg Device.mode same⟩⟩
  · rw [store_mode zero] at stored
    rw [stored]
    refine ⟨goodToo, zero, ⟨rfl, rfl⟩, Or.inr ⟨told, ?_⟩⟩
    exact mode_set s.device _ operationMode

/-- The mode that was read is the device's. -/
theorem wp_bno055GetOperationMode (good : Good script s) (value : UInt8) :
    Wp (bno055GetOperationMode value) (fun got t => Good script t ∧ s.device.Still t.device ∧
      ((got.1 = BNO055_SUCCESS ∧ t.device.pageId = BNO055_PAGE_ZERO ∧ got.2 = s.device.mode) ∨
        (got.1 < 0 ∧ (got.2 = value ∨ got.2 = BNO055_OPERATION_MODE_CONFIG)))) (Good script) s := by
  refine wp_mono (wp_getField good (Or.inl rfl) BNO055_OPERATION_MODE_REG BNO055_OPERATION_MODE value)
    ?_ fun _ kept => kept
  rintro got t ⟨goodToo, still, ⟨success, zero, sensed, same⟩ | failed⟩
  · rw [register_mode zero, still.1] at same
    exact ⟨goodToo, still, Or.inl ⟨success, zero, same⟩⟩
  · exact ⟨goodToo, still, Or.inr failed⟩

theorem Device.Still.mode {before after : Device} (still : before.Still after) :
    after.mode = before.mode := by
  rw [Device.mode, still.1, Device.mode]

theorem Device.Still.sameSettings {before after : Device} (still : before.Still after) :
    before.SameSettings after := ⟨still.2.1, still.2.2⟩

/-- The mode is the one asked for if the call reports success; otherwise it may be the one
before or config mode, too. -/
def Device.ModeSet (before : Device) (operationMode : UInt8) (result : Int) (after : Device) : Prop :=
  (result = BNO055_SUCCESS ∧ after.pageId = BNO055_PAGE_ZERO ∧
      after.mode = operationMode &&& 0x0F) ∨
    (result < 0 ∧ (after.mode = before.mode ∨ after.mode = BNO055_OPERATION_MODE_CONFIG ∨
      after.mode = operationMode &&& 0x0F))

/-- One change of the mode makes the whole call. -/
theorem Device.ModeSet.of_change {before mid after : Device} {operationMode : UInt8} {result : Int}
    (zero : after.pageId = BNO055_PAGE_ZERO)
    (first : mid.mode = before.mode ∨ mid.mode = BNO055_OPERATION_MODE_CONFIG)
    (change : (result < 0 ∧ after.mode = mid.mode) ∨
      ((result = BNO055_SUCCESS ∨ result < 0) ∧ after.mode = operationMode &&& 0x0F)) :
    before.ModeSet operationMode result after := by
  rcases change with ⟨failed, kept⟩ | ⟨success | failed, changed⟩
  · rw [ModeSet, kept]
    exact Or.inr ⟨failed, first.imp id Or.inl⟩
  · exact Or.inl ⟨success, zero, changed⟩
  · exact Or.inr ⟨failed, Or.inr (Or.inr changed)⟩

theorem wp_bno055SetOperationMode (good : Good script s) (operationMode : UInt8) :
    Wp (bno055SetOperationMode operationMode) (fun result t => Good script t ∧
      s.device.SameSettings t.device ∧ s.device.ModeSet operationMode result t.device)
      (Good script) s := by
  rw [bno055SetOperationMode, wp_bind, wp_pBno055]
  cases s.bno with
  | none => exact ⟨good, ⟨rfl, rfl⟩, Or.inr ⟨by decide, Or.inl rfl⟩⟩
  | some bno =>
      dsimp only
      rw [wp_bind]
      refine wp_mono (wp_bno055GetOperationMode good _) ?_ fun _ kept => kept
      rintro ⟨stat, prevOpmode⟩ t ⟨goodToo, still, read⟩
      dsimp only
      rcases read with ⟨success, zero, -⟩ | ⟨failed, -⟩
      · rw [if_neg (not_not.mpr success)]
        by_cases config : prevOpmode = BNO055_OPERATION_MODE_CONFIG
        · rw [if_pos config, wp_map]
          refine wp_mono (wp_changeMode goodToo zero writes_busWriteByte _ _ _) ?_ fun _ kept => kept
          rintro ⟨comRslt, data⟩ u ⟨goodAfter, zeroAfter, same, change⟩
          exact ⟨goodAfter, still.sameSettings.trans same,
            .of_change zeroAfter (Or.inl still.mode) change⟩
        · rw [if_neg config, wp_bind]
          refine wp_mono (wp_changeMode goodToo zero writes_bno055WriteRegister _ _ _) ?_
            fun _ kept => kept
          rintro ⟨comRslt, data⟩ u ⟨goodAfter, zeroAfter, same, change⟩
          dsimp only
          by_cases only : operationMode = BNO055_OPERATION_MODE_CONFIG
          · rw [if_pos only, wp_pure, only]
            exact ⟨goodAfter, still.sameSettings.trans same,
              .of_change zeroAfter (Or.inl still.mode) change⟩
          · rw [if_neg only, wp_map]
            refine wp_mono (wp_changeMode goodAfter zeroAfter writes_busWriteByte _ _ _) ?_
              fun _ kept => kept
            rintro ⟨comRslt, data⟩ v ⟨goodLast, zeroLast, sameLast, last⟩
            -- the second change starts from the mode that the first one left
            have first : u.device.mode = s.device.mode ∨
                u.device.mode = BNO055_OPERATION_MODE_CONFIG := by
              rcases change with ⟨-, kept⟩ | ⟨-, changed⟩
              · exact Or.inl (kept.trans still.mode)
              · exact Or.inr changed
            exact ⟨goodLast, (still.sameSettings.trans same).trans sameLast,
              .of_change zeroLast first last⟩
      · have differs : stat ≠ BNO055_SUCCESS := ne_of_lt failed
        rw [if_pos differs, wp_pure]
        exact ⟨goodToo, still.sameSettings, Or.inr ⟨error_neg, Or.inl still.mode⟩⟩

/-! ## The settings -/

/-- The mode is a field of four bits. -/
theorem mode_and (device : Device) : device.mode &&& 0x0F = device.mode := by
  unfold Device.mode getBitslice BNO055_OPERATION_MODE
  simp only [UInt8.shiftRight_zero, UInt8.and_assoc, UInt8.and_self]

section Configured
variable {change : Proc Bus Int} {changed : Device → Prop}

/-- What is asked of `change`: it runs in config mode and changes its setting or none, and
its setting if it reports success. -/
def Changes (script : List Transfer) (change : Proc Bus Int) (changed : Device → Prop)
    (s : Bus) : Prop :=
  ∀ t, Good script t → s.device.SameSettings t.device → t.device.pageId = BNO055_PAGE_ZERO →
    t.device.mode = BNO055_OPERATION_MODE_CONFIG →
    Wp change (fun result u => Good script u ∧ u.device.mode = BNO055_OPERATION_MODE_CONFIG ∧
      ((result = BNO055_SUCCESS ∧ changed u.device) ∨
        (result < 0 ∧ (changed u.device ∨ s.device.SameSettings u.device)))) (Good script) t

theorem wp_changeInConfig (good : Good script s) (spec : Changes script change changed s)
    (zero : s.device.pageId = BNO055_PAGE_ZERO) :
    Wp (changeInConfig change BNO055_SUCCESS s.device.mode) (fun result t => Good script t ∧
      ((result = BNO055_SUCCESS ∧ changed t.device ∧
          t.device.mode = BNO055_OPERATION_MODE_CONFIG) ∨
        (result < 0 ∧ (changed t.device ∨ s.device.SameSettings t.device) ∧
          (t.device.mode = s.device.mode ∨
            t.device.mode = BNO055_OPERATION_MODE_CONFIG)))) (Good script) s := by
  have changes : ∀ t, Good script t → s.device.SameSettings t.device →
      t.device.pageId = BNO055_PAGE_ZERO → t.device.mode = BNO055_OPERATION_MODE_CONFIG →
      Wp (if BNO055_SUCCESS + BNO055_SUCCESS = BNO055_SUCCESS then change else pure BNO055_ERROR)
        (fun result t => Good script t ∧
          ((result = BNO055_SUCCESS ∧ changed t.device ∧
              t.device.mode = BNO055_OPERATION_MODE_CONFIG) ∨
            (result < 0 ∧ (changed t.device ∨ s.device.SameSettings t.device) ∧
              (t.device.mode = s.device.mode ∨
                t.device.mode = BNO055_OPERATION_MODE_CONFIG)))) (Good script) t := by
    intro t goodToo same zeroToo config
    rw [if_pos (by decide)]
    refine wp_mono (spec t goodToo same zeroToo config) ?_ fun _ kept => kept
    rintro result u ⟨goodAfter, mode, ⟨success, done⟩ | ⟨failed, kept⟩⟩
    · exact ⟨goodAfter, Or.inl ⟨success, done, mode⟩⟩
    · exact ⟨goodAfter, Or.inr ⟨failed, kept, Or.inr mode⟩⟩
  rw [changeInConfig, if_pos rfl, wp_bind, changeInConfig.switchToConfig]
  by_cases config : s.device.mode ≠ BNO055_OPERATION_MODE_CONFIG
  · rw [if_pos config]
    refine wp_mono (wp_bno055SetOperationMode good _) ?_ fun _ kept => kept
    rintro switched t ⟨goodToo, same, ⟨rfl, zeroToo, mode⟩ | ⟨failed, mode⟩⟩
    · exact changes t goodToo same zeroToo mode
    · have differs : BNO055_SUCCESS + switched ≠ BNO055_SUCCESS := by
        unfold BNO055_SUCCESS
        omega
      rw [if_neg differs, wp_pure]
      exact ⟨goodToo, Or.inr ⟨error_neg, Or.inr same, mode.imp id fun config => config.elim id id⟩⟩
  · rw [if_neg config, wp_pure]
    exact changes s good ⟨rfl, rfl⟩ zero (not_not.mp config)

/-- How a setting is changed: wholly and with the mode of before, or, when the call
reports that it failed, perhaps wholly and perhaps to config mode. -/
def Outcome (changed : Device → Prop) (before : Device) (result : Int) (after : Device) : Prop :=
  (result = BNO055_SUCCESS ∧ changed after ∧ after.mode = before.mode) ∨
    (result < 0 ∧ (changed after ∨ before.SameSettings after) ∧
      (after.mode = before.mode ∨ after.mode = BNO055_OPERATION_MODE_CONFIG))

/-- A setting is changed in config mode, and the mode is the one before if the call
reports success. -/
theorem wp_setConfigured (good : Good script s) (spec : ∀ t, s.device.Still t.device →
      Changes script change changed t)
    (settings : ∀ {a b : Device}, a.SameSettings b → changed a → changed b) :
    Wp (setConfigured change) (fun result t => Good script t ∧
      Outcome changed s.device result t.device) (Good script) s := by
  unfold Outcome
  rw [setConfigured, wp_bind, wp_pBno055]
  cases s.bno with
  | none => exact ⟨good, Or.inr ⟨by decide, Or.inr ⟨rfl, rfl⟩, Or.inl rfl⟩⟩
  | some bno =>
      dsimp only
      rw [wp_bind]
      refine wp_mono (wp_bno055GetOperationMode good _) ?_ fun _ kept => kept
      rintro ⟨stat, prevOpmode⟩ t ⟨goodToo, still, read⟩
      dsimp only at read ⊢
      rcases read with ⟨rfl, zero, mode⟩ | ⟨failed, unread⟩
      · rw [mode, ← still.mode, wp_bind]
        refine wp_mono (wp_changeInConfig goodToo (spec t still) zero) ?_ fun _ kept => kept
        rintro comRslt u ⟨goodAfter, outcome⟩
        by_cases config : t.device.mode ≠ BNO055_OPERATION_MODE_CONFIG
        · rw [if_pos config, wp_bind]
          refine wp_mono (wp_bno055SetOperationMode goodAfter _) ?_ fun _ kept => kept
          rintro restored v ⟨goodLast, same, last⟩
          rw [wp_pure]
          refine ⟨goodLast, ?_⟩
          have mode : v.device.mode = t.device.mode ∨
              v.device.mode = BNO055_OPERATION_MODE_CONFIG := by
            rw [Device.ModeSet, mode_and] at last
            rcases last with ⟨-, -, set⟩ | ⟨-, kept | inConfig | set⟩
            · exact Or.inl set
            · rw [kept]
              rcases outcome with ⟨-, -, inConfig⟩ | ⟨-, -, either⟩
              · exact Or.inr inConfig
              · exact either
            · exact Or.inr inConfig
            · exact Or.inl set
          rcases outcome with ⟨rfl, done, -⟩ | ⟨failed, either, -⟩
          · rcases last with ⟨rfl, -, set⟩ | ⟨failed, -⟩
            · rw [mode_and] at set
              exact Or.inl ⟨rfl, settings same done, set⟩
            · have below : BNO055_SUCCESS + restored < 0 := by
                unfold BNO055_SUCCESS
                omega
              exact Or.inr ⟨below, Or.inl (settings same done), mode⟩
          · have below : comRslt + restored < 0 := by
              rcases last with ⟨rfl, -⟩ | ⟨failedToo, -⟩
              · unfold BNO055_SUCCESS
                omega
              · omega
            refine Or.inr ⟨below, ?_, mode⟩
            rcases either with done | kept
            · exact Or.inl (settings same done)
            · exact Or.inr ((still.sameSettings.trans kept).trans same)
        · rw [if_neg config, wp_pure]
          have inConfig : t.device.mode = BNO055_OPERATION_MODE_CONFIG := not_not.mp config
          refine ⟨goodAfter, ?_⟩
          rcases outcome with ⟨success, done, after⟩ | ⟨failed, either, after⟩
          · exact Or.inl ⟨success, done, after.trans inConfig.symm⟩
          · exact Or.inr ⟨failed, either.imp id still.sameSettings.trans, after⟩
      · have differs : stat ≠ BNO055_SUCCESS := ne_of_lt failed
        have config : prevOpmode = BNO055_OPERATION_MODE_CONFIG := unread.elim id id
        rw [changeInConfig, if_neg differs, pure_bind, if_neg (not_not.mpr config), wp_pure]
        exact ⟨goodToo, Or.inr ⟨error_neg, Or.inr still.sameSettings, Or.inl still.mode⟩⟩

theorem store_unit {device : Device} (zero : device.pageId = BNO055_PAGE_ZERO)
    (config : device.mode = BNO055_OPERATION_MODE_CONFIG) (value : UInt8) :
    device.store BNO055_ACCEL_UNIT_REG value = { device with unitSel := value } := by
  unfold Device.store
  rw [if_neg (by decide), if_neg (by rintro ⟨-, same⟩; exact absurd same (by decide)),
    if_neg (not_not.mpr config), if_pos ⟨zero, rfl⟩]

theorem store_range {device : Device} (one : device.pageId = BNO055_PAGE_ONE)
    (config : device.mode = BNO055_OPERATION_MODE_CONFIG) (value : UInt8) :
    device.store BNO055_ACCEL_RANGE_REG value = { device with accelConfig := value } := by
  have other : ¬(device.pageId = BNO055_PAGE_ZERO) := by
    rw [one]
    decide
  unfold Device.store
  rw [if_neg (by decide), if_neg fun both => other both.1, if_neg (not_not.mpr config),
    if_neg fun both => other both.1, if_pos ⟨one, rfl⟩]

/-- The unit is the one asked for, and the range is the same. -/
def UnitSet (before : Device) (accelUnit : UInt8) (after : Device) : Prop :=
  getBitslice after.unitSel BNO055_ACCEL_UNIT = accelUnit &&& 0x01 ∧
    after.accelConfig = before.accelConfig

def RangeSet (before : Device) (accelRange : UInt8) (after : Device) : Prop :=
  accelRange < BNO055_ACCEL_RANGE ∧
    getBitslice after.accelConfig BNO055_ACCEL_RANGE_FIELD = accelRange &&& 0x03 ∧
    after.unitSel = before.unitSel

theorem wp_bno055SetAccelUnit (good : Good script s) (accelUnit : UInt8) :
    Wp (bno055SetAccelUnit accelUnit) (fun result t => Good script t ∧
      Outcome (UnitSet s.device accelUnit) s.device result t.device) (Good script) s := by
  refine wp_setConfigured good ?_ ?_
  · intro u still t goodToo same zero config
    rw [wp_map]
    refine wp_mono (wp_changeField goodToo writes_busWriteByte BNO055_ACCEL_UNIT accelUnit 0 none
      (fun _ => Or.inr (Or.inr ⟨config, Or.inl ⟨zero, rfl⟩⟩)) fun byte => ?_) ?_ fun _ kept => kept
    · rw [store_unit zero config]
    · rintro got v ⟨goodAfter, ⟨failed, kept⟩ | ⟨told, sensed, stored⟩⟩
      · rw [kept]
        exact ⟨goodAfter, config, Or.inr ⟨failed, Or.inr same⟩⟩
      · rw [store_unit zero config] at stored
        rw [stored]
        have done : UnitSet s.device accelUnit { t.device with
            unitSel := setBitslice (t.device.register sensed BNO055_ACCEL_UNIT_REG)
              BNO055_ACCEL_UNIT accelUnit } :=
          ⟨getBitslice_setBitslice _ _ _, same.2.trans still.2.2⟩
        exact ⟨goodAfter, config, told.imp (fun success => ⟨success, done⟩)
          fun failed => ⟨failed, Or.inl done⟩⟩
  · rintro a b ⟨unit, range⟩ ⟨set, kept⟩
    rw [UnitSet, unit]
    exact ⟨set, range.trans kept⟩

theorem wp_bno055SetAccelRange (good : Good script s) (accelRange : UInt8) :
    Wp (bno055SetAccelRange accelRange) (fun result t => Good script t ∧
      Outcome (RangeSet s.device accelRange) s.device result t.device) (Good script) s := by
  refine wp_setConfigured good ?_ ?_
  · intro u still t goodToo same zero config
    rw [wp_bind]
    refine wp_mono (wp_bno055WritePageId goodToo _) ?_ fun _ kept => kept
    rintro pgStat v ⟨goodAfter, paged, ⟨rfl, one⟩ | failed⟩
    · have configToo : v.device.mode = BNO055_OPERATION_MODE_CONFIG := paged.mode.trans config
      rw [if_pos rfl]
      by_cases inRange : accelRange < BNO055_ACCEL_RANGE
      · rw [if_pos inRange, wp_map]
        refine wp_mono (wp_changeField goodAfter writes_busWriteByte BNO055_ACCEL_RANGE_FIELD
          accelRange 0 none (fun _ => Or.inr (Or.inr ⟨configToo, Or.inr ⟨one, rfl⟩⟩))
          fun byte => ?_) ?_ fun _ kept => kept
        · rw [store_range one configToo]
        · rintro got w ⟨goodLast, ⟨failed, kept⟩ | ⟨told, sensed, stored⟩⟩
          · rw [kept]
            exact ⟨goodLast, configToo, Or.inr ⟨failed, Or.inr (same.trans paged.sameSettings)⟩⟩
          · rw [store_range one configToo] at stored
            rw [stored]
            have done : RangeSet s.device accelRange { v.device with
                accelConfig := setBitslice (v.device.register sensed BNO055_ACCEL_RANGE_REG)
                  BNO055_ACCEL_RANGE_FIELD accelRange } :=
              ⟨inRange, getBitslice_setBitslice _ _ _,
                paged.2.1.trans (same.1.trans still.2.1)⟩
            exact ⟨goodLast, configToo, told.imp (fun success => ⟨success, done⟩)
              fun failed => ⟨failed, Or.inl done⟩⟩
      · rw [if_neg inRange, wp_pure]
        exact ⟨goodAfter, configToo,
          Or.inr ⟨by decide, Or.inr (same.trans paged.sameSettings)⟩⟩
    · have differs : pgStat ≠ BNO055_SUCCESS := ne_of_lt failed
      rw [if_neg differs, wp_pure]
      exact ⟨goodAfter, paged.mode.trans config,
        Or.inr ⟨error_neg, Or.inr (same.trans paged.sameSettings)⟩⟩
  · rintro a b ⟨unit, range⟩ ⟨inRange, set, kept⟩
    rw [RangeSet, range]
    exact ⟨inRange, set, unit.trans kept⟩

end Configured

/-! ## The acceleration -/

/-- The registers of an axis in page zero, at the time of a transfer. -/
def Transfer.axis (transfer : Transfer) (reg : UInt8) : Int16 :=
  Int16.ofBitVec ((transfer.sensed BNO055_PAGE_ZERO (reg + 1)).toBitVec ++
    (transfer.sensed BNO055_PAGE_ZERO reg).toBitVec)

/-- A register of page zero that the driver does not write. -/
def Sensor (reg : UInt8) : Prop :=
  reg ≠ BNO055_PAGE_ID_REG ∧ reg ≠ BNO055_ACCEL_UNIT_REG ∧ reg ≠ BNO055_OPERATION_MODE_REG

instance (reg : UInt8) : Decidable (Sensor reg) := inferInstanceAs (Decidable (_ ∧ _ ∧ _))

theorem register_sensor {device : Device} (zero : device.pageId = BNO055_PAGE_ZERO)
    (sensed : UInt8 → UInt8 → UInt8) {reg : UInt8} (sensor : Sensor reg) :
    device.register sensed reg = sensed BNO055_PAGE_ZERO reg := by
  obtain ⟨notPage, notUnit, notMode⟩ := sensor
  have notRange : ¬(device.pageId = BNO055_PAGE_ONE ∧ reg = BNO055_ACCEL_RANGE_REG) := by
    rw [zero]
    rintro ⟨same, -⟩
    exact absurd same (by decide)
  unfold Device.register
  rw [if_neg notPage, if_neg fun both => notUnit both.2, if_neg fun both => notMode both.2,
    if_neg notRange, zero]

/-- The two registers are read in one transfer. -/
theorem wp_readAccel (good : Good script s) {reg : UInt8} (low : Sensor reg) (high : Sensor (reg + 1))
    (value : Int16) :
    Wp (readAccel reg value) (fun got t => Good script t ∧ s.device.Still t.device ∧
      ((got.1 = BNO055_SUCCESS ∧ ∃ transfer ∈ script, got.2 = transfer.axis reg) ∨
        (got.1 < 0 ∧ (got.2 = value ∨ got.2 = 0)))) (Good script) s := by
  rw [readAccel, wp_bind]
  refine wp_mono (wp_selectPage good (Or.inl rfl)) ?_ fun _ kept => kept
  rintro ended t ⟨goodToo, still, errs, selected⟩
  cases ended with
  | some err => exact ⟨goodToo, still, Or.inr ⟨errs err rfl, Or.inl rfl⟩⟩
  | none =>
      have zero : t.device.pageId = BNO055_PAGE_ZERO := selected rfl
      dsimp only
      rw [wp_bind]
      refine wp_busRead goodToo (fun transfer rest next _ => ?_) fun transfer rest next => ?_
      · exact ⟨goodToo.spend (suffix_of_next next), still,
          Or.inr ⟨error_neg, Or.inr (by decide)⟩⟩
      · refine ⟨goodToo.spend (suffix_of_next next), still,
          Or.inl ⟨rfl, transfer, goodToo.mem_of_next next, ?_⟩⟩
        have first : t.device.register transfer.sensed (reg + UInt8.ofNat 0) =
            transfer.sensed BNO055_PAGE_ZERO reg := by
          have same : reg + UInt8.ofNat 0 = reg := UInt8.add_zero reg
          rw [same, register_sensor zero _ low]
        have second : t.device.register transfer.sensed (reg + UInt8.ofNat 1) =
            transfer.sensed BNO055_PAGE_ZERO (reg + 1) := register_sensor zero _ high
        simp only [List.length_cons, List.length_nil, Nat.zero_add, List.range_succ, List.range_zero,
          List.nil_append, List.cons_append, List.map_cons, List.map_nil, List.getD_cons_zero,
          List.getD_cons_succ, first, second]
        rw [sensorData_eq]
        rfl

/-- An axis is zero or what the device measured at one time. -/
def Sampled (script : List Transfer) (reg : UInt8) (x : Int16) : Prop :=
  x = 0 ∨ ∃ transfer ∈ script, x = transfer.axis reg

theorem wp_readAccel_sampled (good : Good script s) {reg : UInt8} (low : Sensor reg)
    (high : Sensor (reg + 1)) :
    Wp (readAccel reg 0) (fun got t => Good script t ∧ s.device.Still t.device ∧
      Sampled script reg got.2) (Good script) s := by
  refine wp_mono (wp_readAccel good low high 0) ?_ fun _ kept => kept
  rintro got t ⟨goodToo, still, ⟨-, measured⟩ | ⟨-, zero⟩⟩
  · exact ⟨goodToo, still, Or.inr measured⟩
  · exact ⟨goodToo, still, Or.inl (zero.elim id id)⟩

theorem wp_readAccelRaw (good : Good script s) :
    Wp readAccelRaw (fun raw t => Good script t ∧ s.device.Still t.device ∧
      Sampled script BNO055_ACCEL_DATA_X_LSB_VALUEX_REG raw.x ∧
      Sampled script BNO055_ACCEL_DATA_Y_LSB_VALUEY_REG raw.y ∧
      Sampled script BNO055_ACCEL_DATA_Z_LSB_VALUEZ_REG raw.z) (Good script) s := by
  rw [readAccelRaw, wp_bind]
  refine wp_mono (wp_readAccel_sampled good (by decide) (by decide)) ?_ fun _ kept => kept
  rintro ⟨_, x⟩ t ⟨goodX, stillX, sampledX⟩
  dsimp only
  rw [wp_bind]
  refine wp_mono (wp_readAccel_sampled goodX (by decide) (by decide)) ?_ fun _ kept => kept
  rintro ⟨_, y⟩ u ⟨goodY, stillY, sampledY⟩
  dsimp only
  rw [wp_bind]
  refine wp_mono (wp_readAccel_sampled goodY (by decide) (by decide)) ?_ fun _ kept => kept
  rintro ⟨_, z⟩ v ⟨goodZ, stillZ, sampledZ⟩
  exact ⟨goodZ, (stillX.trans stillY).trans stillZ, sampledX, sampledY, sampledZ⟩

end Good

/-! ## Setting up -/

/-- The identification registers of page zero do not hold the number of page one. -/
def Ids (script : List Transfer) : Prop :=
  ∀ transfer ∈ script, ∀ reg, Sensor reg → reg ≤ BNO055_PAGE_ID_REG →
    transfer.sensed BNO055_PAGE_ZERO reg ≠ BNO055_PAGE_ONE

/-- What `bno055_init` knows the page by: the last of its eight transfers reads it; or the
device is in page zero, if only since the first, and nothing that is taken for the page
is page one. -/
def Bus.LearnsPage (s : Bus) : Prop :=
  (∃ transfer, s.transfers[7]? = some transfer ∧ transfer.Reads 1) ∨
    ((s.device.pageId = BNO055_PAGE_ZERO ∨
      ∃ transfer, s.transfers[0]? = some transfer ∧ transfer.written = 2) ∧ Ids s.transfers)

/-- What the driver relies on. -/
structure Reliable (s : Bus) : Prop where
  learns : s.LearnsPage
  candid : Candid s.transfers
  tidy : s.Tidy

section Starting
variable {script : List Transfer} {s : Bus} {used : Nat}

/-- `bno055_init` after some of its transfers. -/
structure Starting (script : List Transfer) (used : Nat) (s : Bus) : Prop where
  left : s.transfers = script.drop used
  tidy : s.Tidy

theorem Starting.next (starting : Starting script used s) {transfer : Transfer}
    {rest : List Transfer} (next : s.transfers = transfer :: rest) :
    script[used]? = some transfer ∧ rest = script.drop (used + 1) := by
  have left := starting.left.symm.trans next
  constructor
  · have head : (script.drop used)[0]? = script[used + 0]? := List.getElem?_drop
    rw [left] at head
    exact head.symm
  · rw [← List.tail_drop, left, List.tail_cons]

theorem Starting.spend (starting : Starting script used s) {transfer : Transfer}
    {rest : List Transfer} (next : s.transfers = transfer :: rest) :
    Starting script (used + 1) { s with transfers := rest } :=
  ⟨(starting.next next).2, starting.tidy⟩

theorem Starting.assign (starting : Starting script used s) (f : Bno → Bno) :
    Starting script used { s with bno := s.bno.map f } :=
  ⟨starting.left, starting.tidy⟩

/-- What is kept is a byte of the device, or the byte before when the read is not complete. -/
theorem wp_readInto (starting : Starting script used s) (assign : UInt8 → Bno → Bno)
    (reg data : UInt8) :
    Wp (readInto assign reg data) (fun got t => Starting script (used + 1) t ∧
      t.device = s.device ∧ t.bno = s.bno.map (assign got.2) ∧
      ((∃ transfer ∈ script, got.2 = s.device.register transfer.sensed reg) ∨
        (got.2 = data ∧ ∀ transfer, script[used]? = some transfer → ¬transfer.Reads 1)))
      Bus.Tidy s := by
  rw [readInto, wp_bind]
  refine wp_readByte starting.tidy (fun transfer rest next short => ?_) fun transfer rest next => ?_
  · rw [wp_bind, wp_assignBno, wp_pure]
    refine ⟨(starting.spend next).assign _, rfl, rfl, Or.inr ⟨rfl, fun other at_used => ?_⟩⟩
    rw [(starting.next next).1] at at_used
    cases at_used
    exact short
  · rw [wp_bind, wp_assignBno, wp_pure]
    have member : transfer ∈ script := List.mem_of_getElem? (starting.next next).1
    exact ⟨(starting.spend next).assign _, rfl, rfl, Or.inl ⟨transfer, member, rfl⟩⟩

/-- A byte that is not page one if the device is in page zero. -/
def NotPageOne (script : List Transfer) (device : Device) (data : UInt8) : Prop :=
  device.pageId = BNO055_PAGE_ZERO → Ids script → data ≠ BNO055_PAGE_ONE

/-- `bno055_init` between two of its reads, with the byte the next one is to overwrite. -/
structure Reading (script : List Transfer) (used : Nat) (data : UInt8) (s : Bus) : Prop where
  starting : Starting script used s
  learns : (∃ transfer, script[7]? = some transfer ∧ transfer.Reads 1) ∨
    (s.device.pageId = BNO055_PAGE_ZERO ∧ Ids script)
  byte : NotPageOne script s.device data

theorem Reading.assign {data : UInt8} (reading : Reading script used data s) (f : Bno → Bno) :
    Reading script used data { s with bno := s.bno.map f } :=
  ⟨reading.starting.assign f, reading.learns, reading.byte⟩

theorem wp_readId {data : UInt8} (reading : Reading script used data s)
    (assign : UInt8 → Bno → Bno) {reg : UInt8} (sensor : Sensor reg)
    (low : reg ≤ BNO055_PAGE_ID_REG) :
    Wp (readInto assign reg data) (fun got t => Reading script (used + 1) got.2 t)
      Bus.Tidy s := by
  refine wp_mono (wp_readInto reading.starting assign reg data) ?_ fun _ kept => kept
  rintro got t ⟨startingToo, same, -, known⟩
  refine ⟨startingToo, same ▸ reading.learns, fun zero ids => ?_⟩
  rw [same] at zero
  rcases known with ⟨transfer, member, read⟩ | ⟨kept, -⟩
  · rw [read, register_sensor zero _ sensor]
    exact ids transfer member reg sensor low
  · rw [kept]
    exact reading.byte zero ids

/-- After the last transfer the driver knows the page. -/
theorem wp_readPage {data : UInt8} (reading : Reading script 7 data s) :
    Wp (readInto (fun data bno => { bno with pageId := data }) BNO055_PAGE_ID_REG data)
      (fun _ t => Starting script 8 t ∧ Knows t) Bus.Tidy s := by
  refine wp_mono (wp_readInto reading.starting _ _ data) ?_ fun _ kept => kept
  rintro got t ⟨startingToo, same, renamed, known⟩
  refine ⟨startingToo, fun bno held => ?_⟩
  rw [renamed] at held
  obtain ⟨old, -, rfl⟩ := Option.map_eq_some_iff.mp held
  rw [same]
  rcases known with ⟨transfer, -, read⟩ | ⟨kept, short⟩
  · exact Or.inl (read.trans (if_pos rfl))
  · rcases reading.learns with ⟨transfer, eighth, whole⟩ | ⟨zero, ids⟩
    · exact absurd whole (short transfer eighth)
    · rw [kept]
      exact Or.inr ⟨zero, reading.byte zero ids⟩

/-- The bytes of the software revision are kept apart from the one for the page. -/
theorem wp_readSwId {data : UInt8} (reading : Reading script used data s) :
    Wp (busRead BNO055_SW_REV_ID_LSB_REG [0, 0]) (fun _ t => Reading script (used + 1) data t)
      Bus.Tidy s :=
  wp_busRead reading.starting.tidy
    (fun _ _ next _ => ⟨reading.starting.spend next, reading.learns, reading.byte⟩)
    fun _ _ next => ⟨reading.starting.spend next, reading.learns, reading.byte⟩

/-- The reading of the identifiers makes seven transfers, whichever of them fail. -/
theorem wp_readIds (reading : Reading script 1 0 s) (comRslt : Int) :
    Wp (readIds comRslt) (fun _ t => Starting script 8 t ∧ Knows t) Bus.Tidy s := by
  rw [readIds, wp_bind]
  refine wp_mono (wp_readId reading _ (by decide) (by decide)) ?_ fun _ kept => kept
  rintro ⟨_, chip⟩ t₁ chipRead
  rw [wp_bind]
  refine wp_mono (wp_readId chipRead _ (by decide) (by decide)) ?_ fun _ kept => kept
  rintro ⟨_, accel⟩ t₂ accelRead
  rw [wp_bind]
  refine wp_mono (wp_readId accelRead _ (by decide) (by decide)) ?_ fun _ kept => kept
  rintro ⟨_, mag⟩ t₃ magRead
  rw [wp_bind]
  refine wp_mono (wp_readId magRead _ (by decide) (by decide)) ?_ fun _ kept => kept
  rintro ⟨_, gyro⟩ t₄ gyroRead
  rw [wp_bind]
  refine wp_mono (wp_readId gyroRead _ (by decide) (by decide)) ?_ fun _ kept => kept
  rintro ⟨_, bl⟩ t₅ blRead
  rw [wp_bind]
  refine wp_mono (wp_readSwId blRead) ?_ fun _ kept => kept
  rintro ⟨_, swId⟩ t₆ swRead
  rw [wp_bind, wp_assignBno, wp_bind]
  exact wp_mono (wp_readPage (swRead.assign _)) (fun _ _ after => after) fun _ kept => kept

/-- After `imu_init` the driver knows the page; before, it has only selected it. -/
theorem wp_imuInit (reliable : Reliable s) (bno : Bno) :
    Wp (imuInit bno) (fun _ t => Good s.transfers t) Bus.Tidy s := by
  let begun : Bus := { s with bno := some { bno with devAddr := BNO055_I2C_ADDR1 } }
  have starting : Starting s.transfers 0 begun := ⟨rfl, reliable.tidy⟩
  have ids : ∀ t, Starting s.transfers 1 t →
      ((∃ transfer, s.transfers[7]? = some transfer ∧ transfer.Reads 1) ∨
        (t.device.pageId = BNO055_PAGE_ZERO ∧ Ids s.transfers)) → ∀ comRslt,
      Wp (readIds comRslt) (fun _ t => Wp (do
        let _ ← bno055SetOperationMode BNO055_OPERATION_MODE_NDOF
        pure BNO055_SUCCESS) (fun _ t => Good s.transfers t) Bus.Tidy t) Bus.Tidy t := by
    intro t startingToo learns comRslt
    have reading : Reading s.transfers 1 0 t := ⟨startingToo, learns, fun _ _ => by decide⟩
    refine wp_mono (wp_readIds reading comRslt) ?_ fun _ kept => kept
    rintro _ u ⟨known, knows⟩
    have good : Good s.transfers u :=
      ⟨known.left ▸ List.drop_suffix 8 s.transfers, reliable.candid, knows, known.tidy⟩
    rw [wp_bind]
    exact wp_mono (wp_bno055SetOperationMode good _) (fun _ _ after => after.1)
      fun _ kept => kept.proper
  rw [imuInit, wp_bind, bno055Init, wp_bind, wp_modify, wp_bind]
  change Wp (busWriteByte BNO055_PAGE_ID_REG BNO055_PAGE_ZERO) _ _ begun
  have reached : ∀ rest, rest = s.transfers.drop 1 → ∀ comRslt,
      Wp (readIds comRslt) (fun _ t => Wp (do
        let _ ← bno055SetOperationMode BNO055_OPERATION_MODE_NDOF
        pure BNO055_SUCCESS) (fun _ t => Good s.transfers t) Bus.Tidy t) Bus.Tidy
        (begun.stored rest BNO055_PAGE_ID_REG BNO055_PAGE_ZERO) := by
    intro rest left comRslt
    have proper : Proper (.wrote begun.device BNO055_PAGE_ID_REG BNO055_PAGE_ZERO) := Or.inl rfl
    have tidy : (begun.stored rest BNO055_PAGE_ID_REG BNO055_PAGE_ZERO).Tidy :=
      starting.tidy.snoc proper
    refine ids _ ⟨left, tidy⟩ ?_ comRslt
    refine reliable.learns.imp id fun zero => ⟨?_, zero.2⟩
    rw [Bus.stored, store_page]
  refine wp_busWriteByte starting.tidy (fun transfer rest next short => ?_)
    (fun transfer rest next _ => reached rest (starting.next next).2 _)
    fun transfer rest next => reached rest (starting.next next).2 _
  refine ids _ (starting.spend next) (reliable.learns.imp id ?_) _
  rintro ⟨zero | ⟨first, same, whole⟩, low⟩
  · exact ⟨zero, low⟩
  · rw [(starting.next next).1] at same
    cases same
    exact absurd whole short

end Starting

/-! ## Calls in any order -/

/-- A call of the driver; `value` is what the pointer it is given points to. -/
inductive DriverCall where
  | writePageId (pageId : UInt8)
  | getOperationMode (value : UInt8)
  | setOperationMode (operationMode : UInt8)
  | getAccelUnit (value : UInt8)
  | setAccelUnit (accelUnit : UInt8)
  | getAccelRange (value : UInt8)
  | setAccelRange (accelRange : UInt8)
  | readAccelX (value : Int16)
  | readAccelY (value : Int16)
  | readAccelZ (value : Int16)
  deriving DecidableEq, Repr

/-- What a call left where its argument points to. -/
inductive Reply where
  | nothing
  | field (value : UInt8)
  | axis (value : Int16)
  deriving DecidableEq, Repr

def DriverCall.run : DriverCall → Proc Bus (Int × Reply)
  | writePageId pageId => (·, .nothing) <$> bno055WritePageId pageId
  | getOperationMode value => Prod.map id .field <$> bno055GetOperationMode value
  | setOperationMode operationMode => (·, .nothing) <$> bno055SetOperationMode operationMode
  | getAccelUnit value => Prod.map id .field <$> bno055GetAccelUnit value
  | setAccelUnit accelUnit => (·, .nothing) <$> bno055SetAccelUnit accelUnit
  | getAccelRange value => Prod.map id .field <$> bno055GetAccelRange value
  | setAccelRange accelRange => (·, .nothing) <$> bno055SetAccelRange accelRange
  | readAccelX value => Prod.map id .axis <$> bno055ReadAccelX value
  | readAccelY value => Prod.map id .axis <$> bno055ReadAccelY value
  | readAccelZ value => Prod.map id .axis <$> bno055ReadAccelZ value

def runCalls : List DriverCall → Proc Bus PUnit
  | [] => pure ⟨⟩
  | call :: calls => do
      let _ ← call.run
      runCalls calls

/-- Power on, `imu_init`, and then the calls. -/
def session (bno : Bno) (calls : List DriverCall) : Proc Bus PUnit := do
  let _ ← imuInit bno
  runCalls calls

/-- The work of a call that reports success, in terms of the device. -/
def DriverCall.Did (script : List Transfer) (before : Device) : DriverCall → Reply → Device → Prop
  | writePageId pageId, _, after => before.Still after ∧ after.pageId = pageId
  | getOperationMode _, reply, after => before.Still after ∧ reply = .field before.mode
  | setOperationMode operationMode, _, after =>
      before.SameSettings after ∧ after.mode = operationMode &&& 0x0F
  | getAccelUnit _, reply, after =>
      before.Still after ∧ reply = .field (getBitslice before.unitSel BNO055_ACCEL_UNIT)
  | setAccelUnit accelUnit, _, after => UnitSet before accelUnit after ∧ after.mode = before.mode
  | getAccelRange _, reply, after =>
      before.Still after ∧ reply = .field (getBitslice before.accelConfig BNO055_ACCEL_RANGE_FIELD)
  | setAccelRange accelRange, _, after =>
      RangeSet before accelRange after ∧ after.mode = before.mode
  | readAccelX _, reply, after => before.Still after ∧
      ∃ transfer ∈ script, reply = .axis (transfer.axis BNO055_ACCEL_DATA_X_LSB_VALUEX_REG)
  | readAccelY _, reply, after => before.Still after ∧
      ∃ transfer ∈ script, reply = .axis (transfer.axis BNO055_ACCEL_DATA_Y_LSB_VALUEY_REG)
  | readAccelZ _, reply, after => before.Still after ∧
      ∃ transfer ∈ script, reply = .axis (transfer.axis BNO055_ACCEL_DATA_Z_LSB_VALUEZ_REG)

/-- What a call is to change. -/
def DriverCall.Changes (before : Device) (call : DriverCall) (after : Device) : Prop :=
  match call with
  | setOperationMode operationMode =>
      before.SameSettings after ∧ after.mode = operationMode &&& 0x0F
  | setAccelUnit accelUnit => UnitSet before accelUnit after
  | setAccelRange accelRange => RangeSet before accelRange after
  | _ => False

/-- All that a call may do that reports an error: make its change and no other, and
leave the device in config mode. -/
def DriverCall.Undone (before : Device) (call : DriverCall) (after : Device) : Prop :=
  (before.SameSettings after ∨ call.Changes before after) ∧
    (after.mode = before.mode ∨ after.mode = BNO055_OPERATION_MODE_CONFIG ∨
      (∃ operationMode, call = .setOperationMode operationMode) ∧ call.Changes before after)

theorem Device.Still.undone {before after : Device} (still : before.Still after) (call : DriverCall) :
    call.Undone before after :=
  ⟨Or.inl still.sameSettings, Or.inl still.mode⟩

section Calls
variable {script : List Transfer} {s : Bus}

/-- One call does what it reports. -/
def DriverCall.Meets (script : List Transfer) (before : Device) (call : DriverCall)
    (got : Int × Reply) (after : Device) : Prop :=
  (got.1 = BNO055_SUCCESS ∧ call.Did script before got.2 after) ∨
    (got.1 < 0 ∧ call.Undone before after)

theorem register_unit {device : Device} (zero : device.pageId = BNO055_PAGE_ZERO)
    (sensed : UInt8 → UInt8 → UInt8) :
    device.register sensed BNO055_ACCEL_UNIT_REG = device.unitSel := by
  unfold Device.register
  rw [if_neg (by decide), if_pos ⟨zero, rfl⟩]

theorem register_range {device : Device} (one : device.pageId = BNO055_PAGE_ONE)
    (sensed : UInt8 → UInt8 → UInt8) :
    device.register sensed BNO055_ACCEL_RANGE_REG = device.accelConfig := by
  unfold Device.register
  rw [if_neg (by decide), if_neg (by rintro ⟨-, same⟩; exact absurd same (by decide)),
    if_neg (by rintro ⟨-, same⟩; exact absurd same (by decide)), if_pos ⟨one, rfl⟩]

theorem wp_call (good : Good script s) (call : DriverCall) :
    Wp call.run (fun got t => Good script t ∧ call.Meets script s.device got t.device)
      (Good script) s := by
  cases call with
  | writePageId pageId =>
      refine wp_map.mpr (wp_mono (wp_bno055WritePageId good pageId) ?_ fun _ kept => kept)
      rintro result t ⟨goodToo, still, ⟨success, page⟩ | failed⟩
      · exact ⟨goodToo, Or.inl ⟨success, still, page⟩⟩
      · exact ⟨goodToo, Or.inr ⟨failed, still.undone _⟩⟩
  | getOperationMode value =>
      refine wp_map.mpr (wp_mono (wp_bno055GetOperationMode good value) ?_ fun _ kept => kept)
      rintro got t ⟨goodToo, still, ⟨success, -, mode⟩ | ⟨failed, -⟩⟩
      · exact ⟨goodToo, Or.inl ⟨success, still, congrArg Reply.field mode⟩⟩
      · exact ⟨goodToo, Or.inr ⟨failed, still.undone _⟩⟩
  | setOperationMode operationMode =>
      refine wp_map.mpr (wp_mono (wp_bno055SetOperationMode good operationMode) ?_ fun _ kept => kept)
      rintro result t ⟨goodToo, same, ⟨success, -, mode⟩ | ⟨failed, mode⟩⟩
      · exact ⟨goodToo, Or.inl ⟨success, same, mode⟩⟩
      · exact ⟨goodToo, Or.inr ⟨failed, Or.inl same,
          mode.imp id fun either => either.imp id fun set => ⟨⟨operationMode, rfl⟩, same, set⟩⟩⟩
  | getAccelUnit value =>
      refine wp_map.mpr (wp_mono (wp_getField good (Or.inl rfl) BNO055_ACCEL_UNIT_REG BNO055_ACCEL_UNIT
        value) ?_ fun _ kept => kept)
      rintro got t ⟨goodToo, still, ⟨success, zero, sensed, read⟩ | ⟨failed, -⟩⟩
      · rw [register_unit zero, still.2.1] at read
        exact ⟨goodToo, Or.inl ⟨success, still, congrArg Reply.field read⟩⟩
      · exact ⟨goodToo, Or.inr ⟨failed, still.undone _⟩⟩
  | setAccelUnit accelUnit =>
      refine wp_map.mpr (wp_mono (wp_bno055SetAccelUnit good accelUnit) ?_ fun _ kept => kept)
      rintro result t ⟨goodToo, ⟨success, set, mode⟩ | ⟨failed, either, mode⟩⟩
      · exact ⟨goodToo, Or.inl ⟨success, set, mode⟩⟩
      · exact ⟨goodToo, Or.inr ⟨failed, either.symm, mode.imp id Or.inl⟩⟩
  | getAccelRange value =>
      refine wp_map.mpr (wp_mono (wp_getField good (Or.inr rfl) BNO055_ACCEL_RANGE_REG
        BNO055_ACCEL_RANGE_FIELD value) ?_ fun _ kept => kept)
      rintro got t ⟨goodToo, still, ⟨success, one, sensed, read⟩ | ⟨failed, -⟩⟩
      · rw [register_range one, still.2.2] at read
        exact ⟨goodToo, Or.inl ⟨success, still, congrArg Reply.field read⟩⟩
      · exact ⟨goodToo, Or.inr ⟨failed, still.undone _⟩⟩
  | setAccelRange accelRange =>
      refine wp_map.mpr (wp_mono (wp_bno055SetAccelRange good accelRange) ?_ fun _ kept => kept)
      rintro result t ⟨goodToo, ⟨success, set, mode⟩ | ⟨failed, either, mode⟩⟩
      · exact ⟨goodToo, Or.inl ⟨success, set, mode⟩⟩
      · exact ⟨goodToo, Or.inr ⟨failed, either.symm, mode.imp id Or.inl⟩⟩
  | readAccelX value | readAccelY value | readAccelZ value =>
      refine wp_map.mpr (wp_mono (wp_readAccel good (by decide) (by decide) value) ?_
        fun _ kept => kept)
      rintro got t ⟨goodToo, still, ⟨success, transfer, member, read⟩ | ⟨failed, -⟩⟩
      · exact ⟨goodToo, Or.inl ⟨success, still, transfer, member, congrArg Reply.axis read⟩⟩
      · exact ⟨goodToo, Or.inr ⟨failed, still.undone _⟩⟩

theorem wp_runCalls (good : Good script s) (calls : List DriverCall) :
    Wp (runCalls calls) (fun _ t => Good script t) (Good script) s := by
  induction calls generalizing s with
  | nil => exact good
  | cons call calls ih =>
      rw [runCalls, wp_bind]
      refine wp_mono (wp_call good call) ?_ fun _ kept => kept
      rintro got t ⟨goodToo, -⟩
      exact ih goodToo

theorem wp_session (reliable : Reliable s) (bno : Bno) (calls : List DriverCall) :
    Wp (session bno calls) (fun _ t => Good s.transfers t) Bus.Tidy s := by
  rw [session, wp_bind]
  refine wp_mono (wp_imuInit reliable bno) ?_ fun _ kept => kept
  intro _ t good
  exact wp_mono (wp_runCalls good calls) (fun _ _ after => after) fun _ kept => kept.proper

theorem Good.now (good : Good script s) : Good s.transfers s :=
  ⟨List.suffix_refl _, fun transfer member => good.candid transfer (good.left.subset member),
    good.knows, good.proper⟩

/-- A transfer of a device that answers with zeros, and takes every byte but a page. -/
def zeros (written read : Int) : Transfer :=
  ⟨written, read, fun _ _ => 0, fun reg => reg ≠ BNO055_PAGE_ID_REG⟩

def powerOn (transfers : List (Int × Int)) : Bus where
  bno := none
  device := ⟨BNO055_PAGE_ZERO, BNO055_OPERATION_MODE_CONFIG, 0, 0⟩
  transfers := transfers.map fun counts => zeros counts.1 counts.2
  trace := []

theorem reliable_powerOn (transfers : List (Int × Int)) : Reliable (powerOn transfers) where
  learns := by
    refine Or.inr ⟨Or.inl rfl, fun transfer member reg _ _ one => ?_⟩
    obtain ⟨counts, -, rfl⟩ := List.mem_map.mp member
    exact absurd one (by decide : (0 : UInt8) ≠ BNO055_PAGE_ONE)
  candid := by
    intro transfer member
    obtain ⟨counts, -, rfl⟩ := List.mem_map.mp member
    rfl
  tidy := fun _ member => absurd member List.not_mem_nil

/-- The transfers of `imu_init` when the bus takes them all. -/
def initTransfers : List (Int × Int) :=
  [(2, 0), (1, 1), (1, 1), (1, 1), (1, 1), (1, 1), (1, 2), (1, 1), (1, 1), (1, 1), (2, 0)]

def noBno : Bno := ⟨0, 0, 0, 0, 0, 0, 0, 0⟩

/-- The state after `imu_init` and the calls. -/
def began (calls : List DriverCall) (transfers : List (Int × Int)) : Bus :=
  (exec (session noBno calls) (powerOn transfers)).2

theorem exec_eq_some {α : Type} {p : Proc Bus α} {a : α} {s : Bus} (returned : (exec p s).1 = some a) :
    exec p s = (some a, (exec p s).2) := Prod.ext returned rfl

/-- However the transfers fail and wherever the session stops, each register has been
written in its own page, and the settings in config mode. -/
theorem session_writes_proper (bno : Bno) (calls : List DriverCall) (reliable : Reliable s) :
    (exec (session bno calls) s).2.Tidy := by
  have holds : Wp (session bno calls) (fun _ => Bus.Tidy) Bus.Tidy s :=
    wp_mono (wp_session reliable bno calls) (fun _ _ good => good.proper) fun _ kept => kept
  exact wp_final.mp holds

/-- The write of the mode fails, and reaches the device. -/
theorem session_writes_proper_example :
    (began [.setAccelRange 4] (initTransfers.take 10 ++ [(-1, 0)])).Tidy :=
  session_writes_proper noBno [.setAccelRange 4]
    (reliable_powerOn (initTransfers.take 10 ++ [(-1, 0)]))

/-- At any point of a session a call does what it reports: the registers it reads and
writes are those of its own page, and what is read was in the device at one time. -/
theorem session_call_meets (bno : Bno) (calls : List DriverCall) (call : DriverCall)
    (reliable : Reliable s) {before after : Bus} {got : Int × Reply}
    (ran : exec (session bno calls) s = (some ⟨⟩, before))
    (next : exec call.run before = (some got, after)) :
    call.Meets before.transfers before.device got after.device := by
  have good := wp_of_exec (wp_session reliable bno calls) ran
  have met := wp_of_exec (wp_call (Good.now good) call) next
  exact met.2

theorem session_call_meets_example :
    (DriverCall.readAccelX 7).Meets (began [] (initTransfers ++ [(-1, 0)])).transfers
      (began [] (initTransfers ++ [(-1, 0)])).device (BNO055_ERROR, .axis 0)
      (exec (DriverCall.readAccelX 7).run (began [] (initTransfers ++ [(-1, 0)]))).2.device :=
  session_call_meets noBno [] (.readAccelX 7) (reliable_powerOn (initTransfers ++ [(-1, 0)]))
    (exec_eq_some (by decide +kernel)) (exec_eq_some (by decide +kernel))

/-- The samples that the motion programs normalise are zeros and what the device
measured, each axis at a time of its own. -/
theorem session_samples (bno : Bno) (calls : List DriverCall) (raw : RawAccel)
    (reliable : Reliable s) {before after : Bus}
    (ran : exec (session bno calls) s = (some ⟨⟩, before))
    (next : exec readAccelRaw before = (some raw, after)) :
    Sampled before.transfers BNO055_ACCEL_DATA_X_LSB_VALUEX_REG raw.x ∧
      Sampled before.transfers BNO055_ACCEL_DATA_Y_LSB_VALUEY_REG raw.y ∧
      Sampled before.transfers BNO055_ACCEL_DATA_Z_LSB_VALUEZ_REG raw.z := by
  have good := wp_of_exec (wp_session reliable bno calls) ran
  have read := wp_of_exec (wp_readAccelRaw (Good.now good)) next
  exact read.2.2

theorem session_samples_example :
    Sampled (began [] (initTransfers ++ [(1, 2), (1, 2), (1, 1)])).transfers
        BNO055_ACCEL_DATA_X_LSB_VALUEX_REG 0 ∧
      Sampled (began [] (initTransfers ++ [(1, 2), (1, 2), (1, 1)])).transfers
        BNO055_ACCEL_DATA_Y_LSB_VALUEY_REG 0 ∧
      Sampled (began [] (initTransfers ++ [(1, 2), (1, 2), (1, 1)])).transfers
        BNO055_ACCEL_DATA_Z_LSB_VALUEZ_REG 0 :=
  session_samples noBno [] ⟨0, 0, 0⟩
    (reliable_powerOn (initTransfers ++ [(1, 2), (1, 2), (1, 1)])) (exec_eq_some (by decide +kernel))
    (exec_eq_some (by decide +kernel))

/-! ## Settings -/

inductive Setting where
  | accelUnit
  | accelRange
  deriving DecidableEq, Repr

def Setting.field : Setting → BitName
  | accelUnit => BNO055_ACCEL_UNIT
  | accelRange => BNO055_ACCEL_RANGE_FIELD

def Setting.set : Setting → UInt8 → DriverCall
  | accelUnit => .setAccelUnit
  | accelRange => .setAccelRange

def Setting.get : Setting → UInt8 → DriverCall
  | accelUnit => .getAccelUnit
  | accelRange => .getAccelRange

def Setting.held : Setting → Device → UInt8
  | accelUnit, device => getBitslice device.unitSel BNO055_ACCEL_UNIT
  | accelRange, device => getBitslice device.accelConfig BNO055_ACCEL_RANGE_FIELD

theorem Device.SameSettings.held {before after : Device} (same : before.SameSettings after)
    (setting : Setting) : setting.held after = setting.held before := by
  cases setting with
  | accelUnit => exact congrArg (getBitslice · BNO055_ACCEL_UNIT) same.1
  | accelRange => exact congrArg (getBitslice · BNO055_ACCEL_RANGE_FIELD) same.2

/-- A call that is not to set it, whatever came of it, leaves a setting alone. -/
theorem DriverCall.Meets.held {before after : Device} {call : DriverCall} {got : Int × Reply}
    (meets : call.Meets script before got after) {setting : Setting}
    (other : ∀ value, call ≠ setting.set value) : setting.held after = setting.held before := by
  have unit : ∀ value, call = .setAccelUnit value → UnitSet before value after →
      setting.held after = setting.held before := by
    rintro value rfl ⟨-, same⟩
    cases setting with
    | accelUnit => exact absurd rfl (other value)
    | accelRange => exact congrArg (getBitslice · BNO055_ACCEL_RANGE_FIELD) same
  have range : ∀ value, call = .setAccelRange value → RangeSet before value after →
      setting.held after = setting.held before := by
    rintro value rfl ⟨-, -, same⟩
    cases setting with
    | accelUnit => exact congrArg (getBitslice · BNO055_ACCEL_UNIT) same
    | accelRange => exact absurd rfl (other value)
  rcases meets with ⟨-, did⟩ | ⟨-, same | changed, -⟩
  · cases call with
    | setAccelUnit value => exact unit value rfl did.1
    | setAccelRange value => exact range value rfl did.1
    | setOperationMode mode => exact did.1.held setting
    | writePageId | getOperationMode | getAccelUnit | getAccelRange | readAccelX | readAccelY
      | readAccelZ => exact did.1.sameSettings.held setting
  · exact same.held setting
  · cases call with
    | setAccelUnit value => exact unit value rfl changed
    | setAccelRange value => exact range value rfl changed
    | setOperationMode mode => exact changed.1.held setting
    | writePageId | getOperationMode | getAccelUnit | getAccelRange | readAccelX | readAccelY
      | readAccelZ => exact changed.elim

theorem runCalls_held (good : Good script s) {setting : Setting} (calls : List DriverCall)
    (others : ∀ call ∈ calls, ∀ value, call ≠ setting.set value) {t : Bus} {done : PUnit}
    (ran : exec (runCalls calls) s = (some done, t)) :
    Good script t ∧ setting.held t.device = setting.held s.device := by
  induction calls generalizing s with
  | nil =>
      obtain ⟨-, rfl⟩ := exec_pure_eq_some.mp ran
      exact ⟨good, rfl⟩
  | cons call calls ih =>
      obtain ⟨got, mid, first, rest⟩ := exec_bind_eq_some.mp ran
      have met := wp_of_exec (wp_call good call) first
      obtain ⟨goodToo, same⟩ := ih met.1 (fun c member => others c (.tail _ member)) rest
      exact ⟨goodToo, same.trans (met.2.held (others call List.mem_cons_self))⟩

/-- A setting that was set is read back, at any later time and in spite of all failures
between, until it is set again. -/
theorem setting_sticks (bno : Bno) (setting : Setting) (before between : List DriverCall)
    (value old : UInt8) (reliable : Reliable s)
    (others : ∀ call ∈ between, ∀ again, call ≠ setting.set again)
    {s₁ s₂ s₃ s₄ : Bus} {reply reply' : Reply}
    (began : exec (session bno before) s = (some ⟨⟩, s₁))
    (set : exec (setting.set value).run s₁ = (some (BNO055_SUCCESS, reply), s₂))
    (went : exec (runCalls between) s₂ = (some ⟨⟩, s₃))
    (read : exec (setting.get old).run s₃ = (some (BNO055_SUCCESS, reply'), s₄)) :
    reply' = .field (value &&& setting.field.msk) := by
  have good := wp_of_exec (wp_session reliable bno before) began
  obtain ⟨goodSet, ⟨-, did⟩ | ⟨failed, -⟩⟩ := wp_of_exec (wp_call good (setting.set value)) set
  · have held : setting.held s₂.device = value &&& setting.field.msk := by
      cases setting with
      | accelUnit => exact did.1.1
      | accelRange => exact did.1.2.1
    obtain ⟨goodWent, same⟩ := runCalls_held goodSet between others went
    obtain ⟨-, ⟨-, did'⟩ | ⟨failed, -⟩⟩ := wp_of_exec (wp_call goodWent (setting.get old)) read
    · rw [← held, ← same]
      cases setting with
      | accelUnit => exact did'.2
      | accelRange => exact did'.2
    · exact absurd failed (lt_irrefl 0)
  · exact absurd failed (lt_irrefl 0)

/-- The transfers of `bno055_set_accel_range` from the mode of `imu_init`, of a write of
page zero that fails, and of `bno055_get_accel_range`. -/
def rangeTransfers : List (Int × Int) :=
  [(1, 1), (1, 1), (1, 1), (2, 0), (1, 1), (2, 0), (1, 1), (2, 0), (1, 1), (2, 0), (1, 1), (1, 1),
    (2, 0), (-1, 0), (1, 1), (2, 0), (1, 1)]

theorem setting_sticks_example : Reply.field 3 = .field (3 &&& 0x03) :=
  setting_sticks noBno .accelRange [] [.writePageId 0] 3 9
    (reliable_powerOn (initTransfers ++ rangeTransfers)) (by simp [Setting.set])
    (exec_eq_some (by decide +kernel))
    (exec_eq_some (a := (BNO055_SUCCESS, .nothing)) (by decide +kernel))
    (exec_eq_some (by decide +kernel)) (exec_eq_some (by decide +kernel))

end Calls

end ProjectOwl.Beagle.Imu
