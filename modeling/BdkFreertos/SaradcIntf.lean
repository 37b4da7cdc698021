import BdkFreertos.Machine
import BdkFreertos.Memory
import Mathlib.Logic.Function.Basic

/-!
# Observers of the ADC

A thread converts for one observer after the other.  All of them share one descriptor, one buffer and
one semaphore, and a conversion which outlasts its wait stays open: its samples and its signal reach
whoever comes next.  Every value remembers the samples it was computed from.
-/

namespace BdkFreertos.Saradc

/-- The chips whose ADC drivers differ. -/
inductive Soc
  | bk7231
  /-- BK7231N and BK7236. -/
  | bk7231n
  | other
  deriving DecidableEq

def adcTempBufferSize : Soc → ℕ
  | .bk7231n => 10
  | _ => 5

def saradcAdcChnlMax : Soc → ℕ
  | .bk7231 => 7
  | _ => 12

/-- The bits of a sample register that hold the sample. -/
def sampleMask : Soc → UInt16
  | .bk7231 => 0x03FF
  | _ => 0xFFFF

/-- A conversion and the channel it samples. -/
structure Origin where
  conversion : ℕ
  channel : ℕ
  deriving DecidableEq

/-- A value of the buffer and the samples it was computed from. -/
structure Reading where
  value : UInt16
  origin : List Origin
  deriving DecidableEq

/-- The fields of `saradc_desc_t` that are read here. -/
structure SaradcDesc where
  /-- Whether `pData` points to the buffer. -/
  pData : Bool
  currentSampleDataCnt : ℕ
  dataBuffSize : ℕ
  channel : UInt8
  /-- Whether `p_Int_Handler` is `sadc_detect_handler`. -/
  pIntHandler : Bool
  deriving DecidableEq

/-- The fields of `ADC_OBJ`, with whether there is a callback. -/
structure AdcObj where
  channel : UInt32
  cb : Bool
  deriving DecidableEq

/-- The statement the thread is in front of, in `tadc_check_timer_poll_handle` and
`tadc_obj_handler`, with the handle and the handles after it. -/
inductive Place
  | idle
  /-- The loop over the handles. -/
  | polling (rest : List ℕ)
  /-- `saradc_config_param_init`. -/
  | configuring (handle : ℕ) (rest : List ℕ)
  /-- `channel = handle->channel`. -/
  | settingChannel (handle : ℕ) (rest : List ℕ)
  /-- `data_buff_size = ADC_TEMP_BUFFER_SIZE`. -/
  | settingSize (handle : ℕ) (rest : List ℕ)
  /-- `current_sample_data_cnt = 0`. -/
  | clearingCount (handle : ℕ) (rest : List ℕ)
  /-- `pData = &tadc_entity->adc_data[0]`. -/
  | settingData (handle : ℕ) (rest : List ℕ)
  /-- `os_memset` of the buffer. -/
  | clearingData (handle : ℕ) (rest : List ℕ)
  /-- `p_Int_Handler = sadc_detect_handler`. -/
  | settingHandler (handle : ℕ) (rest : List ℕ)
  /-- The section which tries to open the device, after so many attempts. -/
  | opening (handle : ℕ) (rest : List ℕ) (ret : ℕ)
  /-- `rtos_get_semaphore`, with the conversion that was opened. -/
  | waiting (handle : ℕ) (rest : List ℕ) (own : Option ℕ)
  /-- The callback, after the semaphore was taken. -/
  | reading (handle : ℕ) (rest : List ℕ) (own : Option ℕ)
  deriving DecidableEq

/-- The descriptor, the driver, the device table's entry and the thread. -/
structure AdcState where
  adcCfg : SaradcDesc
  adcData : Memory Reading
  saradcIsBusy : Bool
  /-- What the converter samples while it runs. -/
  active : Option Origin
  conversions : ℕ
  /-- Whether the device is `DD_STATE_OPENED`. -/
  opened : Bool
  useCnt : ℕ
  /-- Whether `adc_handle` is valid. -/
  adcHandle : Bool
  semaWaitEnd : Bool
  objs : ℕ → AdcObj
  adcObjList : List ℕ
  place : Place

/-- After `saradc_work_create`. -/
def saradcWorkCreate : AdcState where
  adcCfg := ⟨false, 0, 0, 0, false⟩
  adcData _ := ⟨0, []⟩
  saradcIsBusy := false
  active := none
  conversions := 0
  opened := false
  useCnt := 0
  adcHandle := false
  semaWaitEnd := false
  objs _ := ⟨0, false⟩
  adcObjList := []
  place := .idle

/-! ## The driver -/

def saradcClose (state : AdcState) : AdcState :=
  { state with
    active := none
    saradcIsBusy := false }

def saradcPause (state : AdcState) : AdcState := { state with active := none }

/-- `saradc_open`; a failure changes nothing. -/
def saradcOpen (soc : Soc) (state : AdcState) : AdcState :=
  let desc := state.adcCfg
  if desc.pData = false then
    state
  else if desc.channel.toNat > saradcAdcChnlMax soc then
    state
  else if desc.dataBuffSize = 0 then
    state
  else if state.saradcIsBusy then
    state
  else
    { state with
      saradcIsBusy := true
      adcCfg := { desc with currentSampleDataCnt := 0 }
      conversions := state.conversions + 1
      active := some ⟨state.conversions + 1, desc.channel.toNat⟩ }

/-- `ddev_open` of the ADC: the driver is called only when the device is closed, and its result is not
looked at. -/
def ddevOpen (soc : Soc) (state : AdcState) : AdcState :=
  if state.opened then
    { state with useCnt := (state.useCnt + 1) % 2 ^ 32 }
  else
    { saradcOpen soc state with
      opened := true
      useCnt := 1 }

/-- `ddev_close` of the handle the thread keeps. -/
def ddevClose (state : AdcState) : AdcState :=
  if state.adcHandle then
    let useCnt := (state.useCnt + (2 ^ 32 - 1)) % 2 ^ 32
    if useCnt = 0 then
      { saradcClose state with
        useCnt := 0
        opened := false }
    else
      { state with useCnt }
  else
    state

/-- The average of the samples 1 to 4, as `sadc_detect_handler` computes it. -/
def average (data : Memory Reading) (accuracy : ℕ) : Reading :=
  let sum1 := (data 1).value.toNat + (data 2).value.toNat
  let sum2 := (data 3).value.toNat + (data 4).value.toNat
  let sum := (sum1 / 2 + sum2 / 2) / 2
  { value := UInt16.ofNat (if accuracy ≠ 0 then sum >>> (accuracy - 1) else sum)
    origin := (data 1).origin ++ (data 2).origin ++ (data 3).origin ++ (data 4).origin }

/-- `sadc_detect_handler`.  Every descriptor asks to be closed, so `saradc_ensure_close` closes. -/
def sadcDetectHandler (state : AdcState) (accuracy : ℕ) : AdcState :=
  if state.adcCfg.currentSampleDataCnt ≥ state.adcCfg.dataBuffSize then
    let closed := saradcClose { ddevClose state with adcHandle := false }
    { closed with
      adcData := closed.adcData.store 0 [average closed.adcData accuracy]
      semaWaitEnd := true }
  else
    state

/-- A sample enters the buffer; a store through a null pointer is lost. -/
def storeSample (soc : Soc) (state : AdcState) (origin : Origin) (word : UInt16) : AdcState :=
  { state with
    adcData :=
      if state.adcCfg.pData then
        state.adcData.store state.adcCfg.currentSampleDataCnt
          [⟨word &&& sampleMask soc, [origin]⟩]
      else
        state.adcData
    adcCfg :=
      { state.adcCfg with currentSampleDataCnt := state.adcCfg.currentSampleDataCnt + 1 } }

/-- The loop of `saradc_isr` over the words in the device's FIFO, which is empty once the converter is
stopped. -/
def isrLoop (soc : Soc) (origin : Origin) (state : AdcState) : List UInt16 → AdcState
  | [] => state
  | word :: words =>
      if state.adcCfg.currentSampleDataCnt < state.adcCfg.dataBuffSize then
        let stored := storeSample soc state origin word
        if stored.adcCfg.currentSampleDataCnt = stored.adcCfg.dataBuffSize then
          match soc with
          | .bk7231n => saradcPause stored
          | _ => saradcClose stored
        else
          isrLoop soc origin stored words
      else
        isrLoop soc origin state words

/-- `saradc_isr`, which is called while the converter runs. -/
def saradcIsr (soc : Soc) (state : AdcState) (words : List UInt16) (accuracy : ℕ) : AdcState :=
  match state.active with
  | none => state
  | some origin =>
      let drained := isrLoop soc origin state words
      if drained.adcCfg.currentSampleDataCnt ≥ drained.adcCfg.dataBuffSize then
        if drained.adcCfg.pIntHandler then sadcDetectHandler drained accuracy else drained
      else
        drained

/-! ## The thread -/

/-- What is seen of a step. -/
inductive Output
  | silent
  /-- The callback of a handle was called with a value of these samples, by an invocation which had
  opened this conversion. -/
  | called (handle : ℕ) (channel : UInt32) (mv : ℤ) (own : Option ℕ) (origin : List Origin)
  deriving DecidableEq

/-- The next statement of the thread.  `calculate` turns a value into millivolts. -/
def nextStatement (soc : Soc) (calculate : UInt16 → ℤ) (state : AdcState) : AdcState × Output :=
  let desc := state.adcCfg
  match state.place with
  | .idle => (state, .silent)
  | .polling [] => ({ state with place := .idle }, .silent)
  | .polling (handle :: rest) => ({ state with place := .configuring handle rest }, .silent)
  | .configuring handle rest =>
      ({ state with
          adcCfg := ⟨false, 0, 0, 1, false⟩
          place := .settingChannel handle rest }, .silent)
  | .settingChannel handle rest =>
      ({ state with
          adcCfg := { desc with channel := (state.objs handle).channel.toUInt8 }
          place := .settingSize handle rest }, .silent)
  | .settingSize handle rest =>
      ({ state with
          adcCfg := { desc with dataBuffSize := adcTempBufferSize soc }
          place := .clearingCount handle rest }, .silent)
  | .clearingCount handle rest =>
      ({ state with
          adcCfg := { desc with currentSampleDataCnt := 0 }
          place := .settingData handle rest }, .silent)
  | .settingData handle rest =>
      ({ state with
          adcCfg := { desc with pData := true }
          place := .clearingData handle rest }, .silent)
  | .clearingData handle rest =>
      ({ state with
          adcData := state.adcData.store 0 (List.replicate desc.dataBuffSize ⟨0, []⟩)
          place := .settingHandler handle rest }, .silent)
  | .settingHandler handle rest =>
      ({ state with
          adcCfg := { desc with pIntHandler := true }
          place := .opening handle rest 0 }, .silent)
  | .opening handle rest ret =>
      if state.saradcIsBusy = false then
        let opened := { ddevOpen soc state with adcHandle := true }
        let own := if opened.conversions = state.conversions then none else some opened.conversions
        ({ opened with place := .waiting handle rest own }, .silent)
      else if ret + 1 < 5 then
        ({ state with place := .opening handle rest (ret + 1) }, .silent)
      else
        ({ state with place := .polling rest }, .silent)
  | .waiting handle rest own =>
      if state.semaWaitEnd then
        ({ state with
            semaWaitEnd := false
            place := .reading handle rest own }, .silent)
      else
        (state, .silent)
  | .reading handle rest own =>
      ({ state with place := .polling rest },
        if (state.objs handle).cb then
          .called handle (state.objs handle).channel (calculate (state.adcData 0).value) own
            (state.adcData 0).origin
        else
          .silent)

/-- What happens next. -/
inductive Event
  /-- `adc_obj_init`, with or without a callback. -/
  | objInit (handle : ℕ) (channel : UInt32) (cb : Bool)
  /-- `adc_obj_start`. -/
  | objStart (handle : ℕ)
  /-- `adc_obj_stop`. -/
  | objStop (handle : ℕ)
  /-- The thread takes a timer message. -/
  | poll
  /-- The thread executes its next statement. -/
  | next
  | timeout
  /-- The converter interrupts with these words and this accuracy. -/
  | interrupt (words : List UInt16) (accuracy : ℕ)
  deriving DecidableEq

/-- The observers, the thread and the converter.  The list of observers is locked during a poll
round. -/
def machine (soc : Soc) (calculate : UInt16 → ℤ) : Machine AdcState Event Output where
  step state
    | .objInit handle channel cb =>
        if state.place = .idle then
          ({ state with
              adcObjList := state.adcObjList.filter (· ≠ handle)
              objs := Function.update state.objs handle ⟨channel, cb⟩ }, .silent)
        else
          (state, .silent)
    | .objStart handle =>
        if state.place = .idle ∧ handle ∉ state.adcObjList then
          ({ state with adcObjList := handle :: state.adcObjList }, .silent)
        else
          (state, .silent)
    | .objStop handle =>
        if state.place = .idle then
          ({ state with adcObjList := state.adcObjList.filter (· ≠ handle) }, .silent)
        else
          (state, .silent)
    | .poll =>
        if state.place = .idle then
          ({ state with place := .polling state.adcObjList }, .silent)
        else
          (state, .silent)
    | .next => nextStatement soc calculate state
    | .timeout =>
        match state.place with
        | .waiting _ rest _ =>
            if state.semaWaitEnd then (state, .silent)
            else ({ state with place := .polling rest }, .silent)
        | _ => (state, .silent)
    | .interrupt words accuracy => (saradcIsr soc state words accuracy, .silent)

/-- A callback gets a value of samples that were all taken on the handle's channel during the
conversion of this invocation. -/
def Output.Own : Output → Prop
  | .silent => True
  | .called _ channel _ own origin =>
      origin ≠ [] ∧ ∀ sample ∈ origin,
        own = some sample.conversion ∧ sample.channel = channel.toNat

instance : (output : Output) → Decidable output.Own
  | .silent => isTrue trivial
  | .called _ _ _ _ _ => inferInstanceAs (Decidable (_ ∧ _))

/-- A callback is made only for a channel of the converter and after a sample has been stored. -/
def HasSample (soc : Soc) (state : AdcState) : Event → Prop
  | .next =>
      match state.place with
      | .reading handle _ _ =>
          (state.objs handle).cb = true →
            (state.objs handle).channel.toNat ≤ saradcAdcChnlMax soc ∧
              state.adcCfg.currentSampleDataCnt ≠ 0
      | _ => True
  | _ => True

/-! ## What the samples of the buffer belong to -/

/-- The descriptor is ready for a handle. -/
structure Configured (soc : Soc) (state : AdcState) (handle : ℕ) : Prop where
  channel : state.adcCfg.channel = (state.objs handle).channel.toUInt8
  size : state.adcCfg.dataBuffSize = adcTempBufferSize soc
  pData : state.adcCfg.pData = true
  handler : state.adcCfg.pIntHandler = true

/-- The samples stored since the open are those of a conversion of the descriptor's channel. -/
structure OwnSamples (soc : Soc) (state : AdcState) (own : ℕ) : Prop where
  last : own = state.conversions
  pData : state.adcCfg.pData = true
  channel_le : state.adcCfg.channel.toNat ≤ saradcAdcChnlMax soc
  active : ∀ origin, state.active = some origin → origin = ⟨own, state.adcCfg.channel.toNat⟩
  stored : ∀ i < state.adcCfg.currentSampleDataCnt, (state.adcData i).origin ≠ [] ∧
    ∀ origin ∈ (state.adcData i).origin, origin = ⟨own, state.adcCfg.channel.toNat⟩
  older : state.adcCfg.currentSampleDataCnt = 0 →
    ∀ origin ∈ (state.adcData 0).origin, origin.conversion ≠ own

/-- An invocation works with its own samples, or it has opened no conversion and none runs. -/
def Opened (soc : Soc) (state : AdcState) : Option ℕ → Prop
  | some own => OwnSamples soc state own
  | none => state.active = none

/-- What holds at each place of the thread. -/
def PlaceOk (soc : Soc) (state : AdcState) : Prop :=
  let desc := state.adcCfg
  let named (handle : ℕ) : Prop := desc.channel = (state.objs handle).channel.toUInt8
  let sized (handle : ℕ) : Prop := named handle ∧ desc.dataBuffSize = adcTempBufferSize soc
  match state.place with
  | .idle | .polling _ | .configuring _ _ | .settingChannel _ _ => True
  | .settingSize handle _ => named handle
  | .clearingCount handle _ | .settingData handle _ => sized handle
  | .clearingData handle _ | .settingHandler handle _ => sized handle ∧ desc.pData = true
  | .opening handle _ _ => Configured soc state handle
  | .waiting handle _ own =>
      Configured soc state handle ∧ Opened soc state own ∧
        (own = none → state.semaWaitEnd = true →
          saradcAdcChnlMax soc < (state.objs handle).channel.toNat)
  | .reading handle _ own =>
      Configured soc state handle ∧ Opened soc state own ∧
        (own = none → saradcAdcChnlMax soc < (state.objs handle).channel.toNat)

/-- A running conversion was opened through the device table and is the last one. -/
structure Running (state : AdcState) (origin : Origin) : Prop where
  busy : state.saradcIsBusy = true
  opened : state.opened = true
  useCnt : state.useCnt = 1
  adcHandle : state.adcHandle = true
  last : origin.conversion = state.conversions

/-- The thread waits for the semaphore. -/
def Waiting : Place → Prop
  | .waiting _ _ _ => True
  | _ => False

/-- The driver and the buffer at every moment. -/
structure DriverOk (soc : Soc) (state : AdcState) : Prop where
  past : ∀ i, ∀ origin ∈ (state.adcData i).origin, origin.conversion ≤ state.conversions
  running : ∀ origin, state.active = some origin → Running state origin
  signal : state.semaWaitEnd = true → ¬ Waiting state.place → state.opened = false
  handler : state.adcCfg.pIntHandler = true →
    state.adcCfg.pData = true ∧ state.adcCfg.dataBuffSize = adcTempBufferSize soc

/-- The invariant of the observers. -/
structure Ok (soc : Soc) (state : AdcState) : Prop where
  driver : DriverOk soc state
  place : PlaceOk soc state

theorem ok_start (soc : Soc) : Ok soc saradcWorkCreate where
  driver :=
    { past := by simp [saradcWorkCreate]
      running := by simp [saradcWorkCreate]
      signal := by simp [saradcWorkCreate]
      handler := by simp [saradcWorkCreate] }
  place := trivial

theorem five_le_size (soc : Soc) : 5 ≤ adcTempBufferSize soc := by cases soc <;> decide

/-! ## Interrupts -/

/-- What an interrupt leaves alone: everything but the count, the buffer, the converter, the device
and the semaphore. -/
structure SameThread (before after : AdcState) : Prop where
  place : after.place = before.place
  objs : after.objs = before.objs
  conversions : after.conversions = before.conversions
  channel : after.adcCfg.channel = before.adcCfg.channel
  size : after.adcCfg.dataBuffSize = before.adcCfg.dataBuffSize
  pData : after.adcCfg.pData = before.adcCfg.pData
  pIntHandler : after.adcCfg.pIntHandler = before.adcCfg.pIntHandler

variable {soc : Soc} {before after : AdcState} {handle : ℕ} {origin : Origin} {state : AdcState}
  {number : ℕ} {desc : SaradcDesc} {place : Place} {calculate : UInt16 → ℤ} (event : Event)

theorem Configured.congr (same : SameThread before after)
    (configured : Configured soc before handle) : Configured soc after handle where
  channel := by rw [same.channel, same.objs]; exact configured.channel
  size := same.size.trans configured.size
  pData := same.pData.trans configured.pData
  handler := same.pIntHandler.trans configured.handler

theorem PlaceOk.congr (same : SameThread before after) (ok : PlaceOk soc before)
    (running : before.active ≠ none)
    (own : ∀ number, OwnSamples soc before number → OwnSamples soc after number) :
    PlaceOk soc after := by
  rw [PlaceOk] at ok ⊢
  rw [same.place]
  cases place : before.place with
  | waiting handle rest number | reading handle rest number =>
      simp only [place] at ok ⊢
      obtain ⟨configured, opened, -⟩ := ok
      cases number with
      | none => exact absurd opened running
      | some number => exact ⟨configured.congr same, own number opened, by simp⟩
  | opening handle rest ret =>
      simp only [place] at ok ⊢
      exact ok.congr same
  | idle | polling | configuring | settingChannel => trivial
  | _ =>
      simp only [place] at ok ⊢
      simp only [same.channel, same.size, same.pData, same.objs]
      exact ok

/-- The middle of an interrupt which began in a state: the samples of the conversion that was running
are being stored. -/
structure During (soc : Soc) (before : AdcState) (origin : Origin) (state : AdcState) : Prop where
  same : SameThread before state
  opened : state.opened = before.opened
  useCnt : state.useCnt = before.useCnt
  adcHandle : state.adcHandle = before.adcHandle
  sema : state.semaWaitEnd = before.semaWaitEnd
  past : ∀ i, ∀ sample ∈ (state.adcData i).origin, sample.conversion ≤ state.conversions
  active : state.active = some origin ∧ state.saradcIsBusy = before.saradcIsBusy ∨
    state.active = none
  own : ∀ number, OwnSamples soc before number → OwnSamples soc state number

theorem During.start (driver : DriverOk soc before) (active : before.active = some origin) :
    During soc before origin before where
  same := ⟨rfl, rfl, rfl, rfl, rfl, rfl, rfl⟩
  opened := rfl
  useCnt := rfl
  adcHandle := rfl
  sema := rfl
  past := driver.past
  active := Or.inl ⟨active, rfl⟩
  own _ own := own

theorem OwnSamples.store (own : OwnSamples soc state number) (active : state.active = some origin)
    (word : UInt16) : OwnSamples soc (storeSample soc state origin word) number := by
  refine ⟨own.last, own.pData, own.channel_le, own.active, fun i inside => ?_, fun zero => ?_⟩
  · simp only [storeSample] at inside
    simp only [storeSample, own.pData, if_true]
    rcases Nat.lt_or_ge i state.adcCfg.currentSampleDataCnt with earlier | last
    · rw [Memory.store_singleton_of_ne _ _ (Nat.ne_of_lt earlier)]
      exact own.stored i earlier
    · obtain rfl : i = state.adcCfg.currentSampleDataCnt := by omega
      rw [Memory.store_singleton_self]
      refine ⟨List.cons_ne_nil _ _, fun sample member => ?_⟩
      rw [List.mem_singleton.mp member]
      exact own.active origin active
  · exact absurd zero (Nat.succ_ne_zero _)

theorem OwnSamples.stop (busy : Bool) (own : OwnSamples soc state number) :
    OwnSamples soc { state with active := none, saradcIsBusy := busy } number :=
  ⟨own.last, own.pData, own.channel_le, by simp, own.stored, own.older⟩

namespace During

variable {soc : Soc} {before state : AdcState} {origin : Origin}

section

variable (during : During soc before origin state)
include during

theorem store (last : origin.conversion = before.conversions) (active : state.active = some origin)
    (word : UInt16) : During soc before origin (storeSample soc state origin word) := by
  obtain ⟨same, opened, useCnt, adcHandle, sema, past, running, own⟩ := during
  refine ⟨⟨same.place, same.objs, same.conversions, same.channel, same.size, same.pData,
    same.pIntHandler⟩, opened, useCnt, adcHandle, sema, fun i sample member => ?_, running,
    fun number earlier => (own number earlier).store active word⟩
  simp only [storeSample] at member
  split at member
  · by_cases new : i = state.adcCfg.currentSampleDataCnt
    · rw [new, Memory.store_singleton_self] at member
      rw [List.mem_singleton.mp member, last]
      exact Nat.le_of_eq same.conversions.symm
    · rw [Memory.store_singleton_of_ne _ _ new] at member
      exact past i sample member
  · exact past i sample member

theorem stop (busy : Bool) :
    During soc before origin { state with active := none, saradcIsBusy := busy } :=
  ⟨⟨during.same.place, during.same.objs, during.same.conversions, during.same.channel,
    during.same.size, during.same.pData, during.same.pIntHandler⟩, during.opened, during.useCnt,
    during.adcHandle, during.sema, during.past, Or.inr rfl,
    fun number own => (during.own number own).stop busy⟩

theorem isrLoop (last : origin.conversion = before.conversions)
    (active : state.active = some origin) (words : List UInt16) :
    During soc before origin (isrLoop soc origin state words) := by
  induction words generalizing state with
  | nil => exact during
  | cons word words induction =>
      rw [Saradc.isrLoop]
      have stored := during.store last active word
      split
      · simp only
        split
        · cases soc with
          | bk7231n => exact stored.stop _
          | _ => exact stored.stop false
        · exact induction stored active
      · exact induction during active

end

end During

theorem sadcDetectHandler_eq (opened : state.useCnt = 1) (adcHandle : state.adcHandle = true)
    (all : state.adcCfg.dataBuffSize ≤ state.adcCfg.currentSampleDataCnt) (accuracy : ℕ) :
    sadcDetectHandler state accuracy =
      { state with
        active := none
        saradcIsBusy := false
        useCnt := 0
        opened := false
        adcHandle := false
        adcData := state.adcData.store 0 [average state.adcData accuracy]
        semaWaitEnd := true } := by
  rw [sadcDetectHandler, if_pos all, ddevClose, if_pos adcHandle, opened]
  rfl

theorem OwnSamples.average (own : OwnSamples soc state number)
    (enough : 5 ≤ state.adcCfg.currentSampleDataCnt) (accuracy : ℕ) :
    (average state.adcData accuracy).origin ≠ [] ∧
      ∀ origin ∈ (average state.adcData accuracy).origin,
        origin = ⟨number, state.adcCfg.channel.toNat⟩ := by
  have first := own.stored 1 (by omega)
  have second := own.stored 2 (by omega)
  have third := own.stored 3 (by omega)
  have fourth := own.stored 4 (by omega)
  constructor
  · simp [Saradc.average, first.1]
  · intro origin member
    simp only [Saradc.average, List.mem_append] at member
    rcases member with ((member | member) | member) | member
    · exact first.2 origin member
    · exact second.2 origin member
    · exact third.2 origin member
    · exact fourth.2 origin member

namespace During

variable {soc : Soc} {before state : AdcState} {origin : Origin}

theorem handler (during : During soc before origin state) (ok : Ok soc before)
    (set : state.adcCfg.pIntHandler = true) :
    state.adcCfg.pData = true ∧ state.adcCfg.dataBuffSize = adcTempBufferSize soc := by
  rw [during.same.pData, during.same.size]
  exact ok.driver.handler (during.same.pIntHandler.symm.trans set)

theorem ok (during : During soc before origin state) (ok : Ok soc before)
    (active : before.active = some origin) : Ok soc state := by
  have running := ok.driver.running origin active
  refine ⟨⟨during.past, fun other still => ?_, ?_, during.handler ok⟩,
    ok.place.congr during.same (by simp [active]) during.own⟩
  · rcases during.active with ⟨kept, busy⟩ | stopped
    · obtain rfl : origin = other := Option.some.inj (kept.symm.trans still)
      exact ⟨busy.trans running.busy, during.opened.trans running.opened,
        during.useCnt.trans running.useCnt, during.adcHandle.trans running.adcHandle,
        running.last.trans during.same.conversions.symm⟩
    · rw [stopped] at still
      cases still
  · rw [during.sema, during.same.place, during.opened]
    exact ok.driver.signal

theorem handled_ok (during : During soc before origin state) (ok : Ok soc before)
    (active : before.active = some origin) (set : state.adcCfg.pIntHandler = true)
    (all : state.adcCfg.dataBuffSize ≤ state.adcCfg.currentSampleDataCnt) (accuracy : ℕ) :
    Ok soc (sadcDetectHandler state accuracy) := by
  have running := ok.driver.running origin active
  have enough : 5 ≤ state.adcCfg.currentSampleDataCnt := by
    have five := five_le_size soc
    have size := (during.handler ok set).2
    omega
  have same := during.same
  rw [sadcDetectHandler_eq (during.useCnt.trans running.useCnt)
    (during.adcHandle.trans running.adcHandle) all accuracy]
  refine ⟨⟨fun i sample member => ?_, by simp, by simp, during.handler ok⟩,
    ok.place.congr ⟨same.place, same.objs, same.conversions, same.channel, same.size, same.pData,
      same.pIntHandler⟩ (by simp [active]) fun number earlier => ?_⟩
  · simp only at member
    by_cases first : i = 0
    · subst first
      rw [Memory.store_singleton_self] at member
      simp only [average, List.mem_append] at member
      rcases member with ((member | member) | member) | member <;>
        exact during.past _ sample member
    · rw [Memory.store_singleton_of_ne _ _ first] at member
      exact during.past i sample member
  · have own := during.own number earlier
    refine ⟨own.last, own.pData, own.channel_le, by simp, fun i inside => ?_, fun zero => ?_⟩
    · simp only
      by_cases first : i = 0
      · subst first
        rw [Memory.store_singleton_self]
        exact own.average enough accuracy
      · rw [Memory.store_singleton_of_ne _ _ first]
        exact own.stored i inside
    · simp only at zero
      omega

end During

theorem saradcIsr_ok (ok : Ok soc state) (words : List UInt16) (accuracy : ℕ) :
    Ok soc (saradcIsr soc state words accuracy) := by
  rw [saradcIsr]
  cases active : state.active with
  | none => exact ok
  | some origin =>
      have running := ok.driver.running origin active
      have during := (During.start ok.driver active).isrLoop running.last active words
      simp only
      split
      next all =>
        split
        next set => exact during.handled_ok ok active set all accuracy
        next => exact during.ok ok active
      next => exact during.ok ok active

/-! ## Statements of the thread -/

section

variable (driver : DriverOk soc state) (still : ¬ Waiting state.place)
  (handler : desc.pIntHandler = true → desc.pData = true ∧ desc.dataBuffSize = adcTempBufferSize soc)
include driver still handler

/-- The thread may change the descriptor and clear the buffer outside a wait. -/
theorem DriverOk.prepare {data : Memory Reading}
    (past : ∀ i, ∀ origin ∈ (data i).origin, origin.conversion ≤ state.conversions) :
    DriverOk soc { state with adcCfg := desc, adcData := data, place := place } :=
  ⟨past, fun origin active =>
    have running := driver.running origin active
    ⟨running.busy, running.opened, running.useCnt, running.adcHandle, running.last⟩,
    fun signal _ => driver.signal signal still, handler⟩

theorem DriverOk.configure : DriverOk soc { state with adcCfg := desc, place := place } :=
  driver.prepare still handler driver.past

end

theorem DriverOk.move (driver : DriverOk soc state) (still : ¬ Waiting state.place) :
    DriverOk soc { state with place := place } :=
  driver.configure still driver.handler

/-- The driver opens a conversion of the descriptor's channel, or refuses a channel it does not
have. -/
theorem saradcOpen_eq (configured : Configured soc state handle)
    (free : state.saradcIsBusy = false) :
    saradcOpen soc state =
      if state.adcCfg.channel.toNat > saradcAdcChnlMax soc then
        state
      else
        { state with
          saradcIsBusy := true
          adcCfg := { state.adcCfg with currentSampleDataCnt := 0 }
          conversions := state.conversions + 1
          active := some ⟨state.conversions + 1, state.adcCfg.channel.toNat⟩ } := by
  have five := five_le_size soc
  have size : state.adcCfg.dataBuffSize ≠ 0 := by
    rw [configured.size]
    omega
  rw [saradcOpen]
  simp only [configured.pData, Bool.true_eq_false, if_false, if_neg size, free]
  rfl

theorem toUInt8_toNat_of_le {channel : UInt32} (inside : channel.toNat ≤ saradcAdcChnlMax soc) :
    channel.toUInt8.toNat = channel.toNat := by
  have small : saradcAdcChnlMax soc ≤ 12 := by cases soc <;> decide
  rw [UInt32.toNat_toUInt8]
  omega

/-- `ddev_open` starts a conversion, or nothing when the driver refuses the channel or the device was
left open. -/
theorem opening_ok (ok : Ok soc state) {rest : List ℕ} {ret : ℕ}
    (place : state.place = .opening handle rest ret) (free : state.saradcIsBusy = false) :
    let opened := { ddevOpen soc state with adcHandle := true }
    Ok soc
      { opened with
        place := .waiting handle rest
          (if opened.conversions = state.conversions then none else some opened.conversions) } := by
  have still : ¬ Waiting state.place := by simp [place, Waiting]
  have configured : Configured soc state handle := by
    have placed := ok.place
    rw [PlaceOk, place] at placed
    exact placed
  have stopped : state.active = none := by
    cases active : state.active with
    | none => rfl
    | some origin =>
        have busy := (ok.driver.running origin active).busy
        rw [free] at busy
        cases busy
  rw [ddevOpen, saradcOpen_eq configured free]
  split
  next left =>
    have quiet : state.semaWaitEnd ≠ true := fun signal => by
      have closed := ok.driver.signal signal still
      rw [left] at closed
      cases closed
    simp only [if_true]
    refine ⟨⟨ok.driver.past, fun origin active => ?_, by simp [Waiting], ok.driver.handler⟩,
      ⟨configured.channel, configured.size, configured.pData, configured.handler⟩, stopped,
      fun _ signal => absurd signal quiet⟩
    simp [stopped] at active
  next closed =>
    split
    next refused =>
      simp only [if_true]
      refine ⟨⟨ok.driver.past, fun origin active => ?_, by simp [Waiting], ok.driver.handler⟩,
        ⟨configured.channel, configured.size, configured.pData, configured.handler⟩, stopped,
        fun _ _ => ?_⟩
      · simp [stopped] at active
      · by_contra inside
        have same := toUInt8_toNat_of_le (Nat.not_lt.mp inside)
        rw [configured.channel, same] at refused
        exact inside refused
    next accepted =>
      have fresh : state.conversions + 1 ≠ state.conversions := Nat.succ_ne_self _
      simp only [if_neg fresh]
      refine ⟨⟨fun i sample member => ?_, fun origin active => ?_, by simp [Waiting],
        ok.driver.handler⟩,
        ⟨configured.channel, configured.size, configured.pData, configured.handler⟩,
        ⟨rfl, configured.pData, Nat.not_lt.mp accepted, fun origin active => ?_,
          fun i inside => absurd inside (Nat.not_lt_zero i), fun _ sample member => ?_⟩, by simp⟩
      · exact Nat.le_succ_of_le (ok.driver.past i sample member)
      · simp only [Option.some.injEq] at active
        subst active
        exact ⟨rfl, rfl, rfl, rfl, rfl⟩
      · exact (Option.some.inj active).symm
      · have before := ok.driver.past 0 sample member
        exact Nat.ne_of_lt (Nat.lt_succ_of_le before)

theorem nextStatement_ok (ok : Ok soc state) : Ok soc (nextStatement soc calculate state).1 := by
  obtain ⟨driver, placed⟩ := ok
  have whole : Ok soc state := ⟨driver, placed⟩
  rw [PlaceOk] at placed
  cases place : state.place with
  | idle =>
      simp only [nextStatement, place]
      exact whole
  | polling rest =>
      have still : ¬ Waiting state.place := by simp [place, Waiting]
      cases rest <;> simp only [nextStatement, place] <;> exact ⟨driver.move still, trivial⟩
  | configuring handle rest =>
      have still : ¬ Waiting state.place := by simp [place, Waiting]
      simp only [nextStatement, place]
      exact ⟨driver.configure still (by simp), trivial⟩
  | settingChannel handle rest =>
      have still : ¬ Waiting state.place := by simp [place, Waiting]
      simp only [nextStatement, place]
      exact ⟨driver.configure still driver.handler, rfl⟩
  | settingSize handle rest =>
      have still : ¬ Waiting state.place := by simp [place, Waiting]
      simp only [place] at placed
      simp only [nextStatement, place]
      exact ⟨driver.configure still fun set => ⟨(driver.handler set).1, rfl⟩, placed, rfl⟩
  | clearingCount handle rest =>
      have still : ¬ Waiting state.place := by simp [place, Waiting]
      simp only [place] at placed
      simp only [nextStatement, place]
      exact ⟨driver.configure still driver.handler, placed⟩
  | settingData handle rest =>
      have still : ¬ Waiting state.place := by simp [place, Waiting]
      simp only [place] at placed
      simp only [nextStatement, place]
      exact ⟨driver.configure still fun set => ⟨rfl, (driver.handler set).2⟩, placed, rfl⟩
  | clearingData handle rest =>
      have still : ¬ Waiting state.place := by simp [place, Waiting]
      simp only [place] at placed
      simp only [nextStatement, place]
      refine ⟨driver.prepare still driver.handler fun i sample member => ?_, placed⟩
      rcases Nat.lt_or_ge i state.adcCfg.dataBuffSize with cleared | beyond
      · have cell := state.adcData.store_apply_add 0 i
          (List.replicate state.adcCfg.dataBuffSize ⟨0, []⟩)
        rw [Nat.zero_add, List.getElem?_replicate_of_lt cleared, Option.getD_some] at cell
        rw [cell] at member
        cases member
      · rw [Memory.store_apply_of_le _ (by simpa using beyond)] at member
        exact driver.past i sample member
  | settingHandler handle rest =>
      have still : ¬ Waiting state.place := by simp [place, Waiting]
      simp only [place] at placed
      simp only [nextStatement, place]
      obtain ⟨⟨named, sized⟩, data⟩ := placed
      exact ⟨driver.configure still fun _ => ⟨data, sized⟩, named, sized, data, rfl⟩
  | opening handle rest ret =>
      have still : ¬ Waiting state.place := by simp [place, Waiting]
      simp only [place] at placed
      simp only [nextStatement, place]
      split
      next free => exact opening_ok whole place free
      next =>
        split
        · exact ⟨driver.move still, placed.channel, placed.size, placed.pData, placed.handler⟩
        · exact ⟨driver.move still, trivial⟩
  | waiting handle rest own =>
      simp only [place] at placed
      simp only [nextStatement, place]
      obtain ⟨configured, opened, stale⟩ := placed
      split
      next signal =>
        refine ⟨⟨driver.past, fun origin active => ?_, by simp, driver.handler⟩,
          ⟨configured.channel, configured.size, configured.pData, configured.handler⟩, ?_,
          fun none => stale none signal⟩
        · have running := driver.running origin active
          exact ⟨running.busy, running.opened, running.useCnt, running.adcHandle, running.last⟩
        · cases own with
          | none => exact opened
          | some number =>
              exact ⟨opened.last, opened.pData, opened.channel_le, opened.active, opened.stored,
                opened.older⟩
      next => exact whole
  | reading handle rest own =>
      have still : ¬ Waiting state.place := by simp [place, Waiting]
      simp only [nextStatement, place]
      exact ⟨driver.move still, trivial⟩

theorem step_ok (ok : Ok soc state) : Ok soc ((machine soc calculate).step state event).1 := by
  have obj_ok (list : List ℕ) (objs : ℕ → AdcObj) (idle : state.place = .idle) :
      Ok soc { state with adcObjList := list, objs := objs } := by
    refine ⟨⟨ok.driver.past, fun origin active => ?_, ok.driver.signal, ok.driver.handler⟩, ?_⟩
    · have running := ok.driver.running origin active
      exact ⟨running.busy, running.opened, running.useCnt, running.adcHandle, running.last⟩
    · simp [PlaceOk, idle]
  cases event with
  | objInit handle channel cb | objStop handle =>
      simp only [machine]
      split
      next idle => exact obj_ok _ _ idle
      next => exact ok
  | objStart handle =>
      simp only [machine]
      split
      next free => exact obj_ok _ _ free.1
      next => exact ok
  | poll =>
      simp only [machine]
      split
      next idle => exact ⟨ok.driver.move (by simp [idle, Waiting]), trivial⟩
      next => exact ok
  | next => exact nextStatement_ok ok
  | timeout =>
      simp only [machine]
      split
      next handle rest own place =>
        split
        next => exact ok
        next quiet =>
          refine ⟨⟨ok.driver.past, fun origin active => ?_, fun signal _ => absurd signal quiet,
            ok.driver.handler⟩, trivial⟩
          have running := ok.driver.running origin active
          exact ⟨running.busy, running.opened, running.useCnt, running.adcHandle, running.last⟩
      next => exact ok
  | interrupt words accuracy => exact saradcIsr_ok ok words accuracy

/-- A callback gets its own samples exactly when the converter has its channel and a sample has been
stored. -/
theorem step_own_iff (ok : Ok soc state) :
    ((machine soc calculate).step state event).2.Own ↔ HasSample soc state event := by
  have silent : Output.silent.Own := trivial
  have placed := ok.place
  rw [PlaceOk] at placed
  cases event with
  | next =>
      cases place : state.place with
      | reading handle rest own =>
          simp only [place] at placed
          obtain ⟨configured, opened, stale⟩ := placed
          simp only [machine, nextStatement, place, HasSample]
          split
          next cb =>
            simp only [Output.Own, cb, forall_const]
            cases own with
            | none =>
                have outside := stale rfl
                refine iff_of_false (fun good => ?_) (fun inside => ?_)
                · obtain ⟨sample, member⟩ := List.exists_mem_of_ne_nil _ good.1
                  cases (good.2 sample member).1
                · omega
            | some number =>
                constructor
                · rintro ⟨several, own⟩
                  obtain ⟨sample, member⟩ := List.exists_mem_of_ne_nil _ several
                  obtain ⟨last, channel⟩ := own sample member
                  have count : state.adcCfg.currentSampleDataCnt ≠ 0 := fun zero =>
                    opened.older zero sample member (Option.some.inj last).symm
                  have stored := (opened.stored 0 (Nat.pos_of_ne_zero count)).2 sample member
                  rw [← channel, stored]
                  exact ⟨opened.channel_le, count⟩
                · rintro ⟨inside, count⟩
                  obtain ⟨several, own⟩ := opened.stored 0 (Nat.pos_of_ne_zero count)
                  refine ⟨several, fun sample member => ?_⟩
                  rw [own sample member, configured.channel, toUInt8_toNat_of_le inside]
                  exact ⟨rfl, rfl⟩
          next none => simp [silent, none]
      | opening handle rest ret =>
          simp only [machine, nextStatement, place, HasSample]
          split
          · exact iff_of_true silent trivial
          · split <;> exact iff_of_true silent trivial
      | waiting handle rest own =>
          simp only [machine, nextStatement, place, HasSample]
          split <;> exact iff_of_true silent trivial
      | polling rest =>
          cases rest <;> simp only [machine, nextStatement, place, HasSample] <;>
            exact iff_of_true silent trivial
      | _ =>
          simp only [machine, nextStatement, place, HasSample]
          exact iff_of_true silent trivial
  | timeout =>
      simp only [machine, HasSample]
      split
      · split <;> exact iff_of_true silent trivial
      · exact iff_of_true silent trivial
  | interrupt words accuracy => exact iff_of_true silent trivial
  | _ =>
      simp only [machine, HasSample]
      split <;> exact iff_of_true silent trivial

/-- In a run every callback gets a value of its own channel's samples, taken during its own
conversion, exactly if every callback is made for a channel of the converter and after a sample has
been stored. -/
theorem callbacks_own_iff (soc : Soc) (calculate : UInt16 → ℤ) (events : List Event) :
    (∀ output ∈ (machine soc calculate).outputs saradcWorkCreate events, output.Own) ↔
      (machine soc calculate).Always (HasSample soc) saradcWorkCreate events :=
  ((machine soc calculate).forall_outputs_iff_always Output.Own saradcWorkCreate events).trans
    ((machine soc calculate).always_iff_always _ (HasSample soc) (Ok soc)
      (fun event ok => step_own_iff event ok) (fun event ok _ => step_ok event ok)
      (ok_start soc) events)

/-- Two observers; the conversion of the first outlasts its wait and ends while the second prepares
its own. -/
def lateConversion : List Event :=
  List.flatten
    [[.objInit 0 1 true, .objStart 0, .objInit 1 2 true, .objStart 1, .poll],
      List.replicate 9 .next, [.timeout], List.replicate 8 .next,
      [.interrupt [100, 100, 100, 100, 100] 0], List.replicate 3 .next]

/-- The second observer gets the value of the first one's channel. -/
theorem late_conversion_misdelivered :
    ¬ ∀ output ∈ (machine .other fun value => value.toNat).outputs saradcWorkCreate lateConversion,
      output.Own := by
  decide +kernel

end BdkFreertos.Saradc
