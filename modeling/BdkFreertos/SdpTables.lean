import BdkFreertos.SdpExtract

/-!
# What the tables of a service list

Both passes over the array are followed with the entries that were visited so far.
-/

namespace BdkFreertos.Sdp

namespace SvcInd

variable {ind : SvcInd} {i : ℕ} {att : AttInfo}

theorem exists_val (declared : ind.declares i att = true) :
    ∃ val, ind.info[ind.valIdx att]? = some val := by
  rw [declares, inRange, Bool.and_eq_true, Bool.and_eq_true, decide_eq_true_eq,
    decide_eq_true_eq] at declared
  apply exists_att
  rw [valIdx, range]
  omega

theorem listedChar_eq (here : ind.info[i]? = some att) (declared : ind.declares i att = true)
    {val : AttInfo} (val_eq : ind.info[ind.valIdx att]? = some val) :
    ind.listedChar i = some ⟨val.uuid, ind.hdl i, att.handle, att.prop⟩ := by
  simp [listedChar, here, declared, val_eq]

theorem listedChar_none (noChar : ¬ind.CharAt i) : ind.listedChar i = none := by
  rw [listedChar]
  rcases here : ind.info[i]? with _ | att
  · rfl
  · have undeclared : ind.declares i att = false :=
      Bool.eq_false_iff.mpr fun declared => noChar ⟨att, here, declared⟩
    simp [undeclared]

theorem listedDesc_eq (here : ind.info[i]? = some att) (desc : att.attType = gattcSdpAttDesc)
    (owned : ind.Owned i) :
    ind.listedDesc i = some ⟨att.uuid, .ofNat ((ind.listedChars i).length - 1), ind.hdl i⟩ := by
  simp [listedDesc, here, desc, owned]

theorem listedDesc_none (unowned : ¬(ind.DescAt i ∧ ind.Owned i)) : ind.listedDesc i = none := by
  rw [listedDesc]
  rcases here : ind.info[i]? with _ | att
  · rfl
  · have free : ¬(att.attType = gattcSdpAttDesc ∧ ind.Owned i) := fun both =>
      unowned ⟨⟨att, here, both.1⟩, both.2⟩
    simp [free]

theorem listedChars_succ (ind : SvcInd) (i : ℕ) :
    ind.listedChars (i + 1) = ind.listedChars i ++ (ind.listedChar i).toList := by
  rw [listedChars, listedChars, List.range_succ, List.filterMap_append]
  cases here : ind.listedChar i <;> simp [here]

theorem listedDescs_succ (ind : SvcInd) (i : ℕ) :
    ind.listedDescs (i + 1) = ind.listedDescs i ++ (ind.listedDesc i).toList := by
  rw [listedDescs, listedDescs, List.range_succ, List.filterMap_append]
  cases here : ind.listedDesc i <;> simp [here]

theorem CharAt.not_descAt (char : ind.CharAt i) : ¬ind.DescAt i :=
  fun desc => desc.not_stopsAt char.stopsAt

theorem DescAt.not_charAt (desc : ind.DescAt i) : ¬ind.CharAt i :=
  fun char => char.not_descAt desc

end SvcInd

open SvcInd

/-! ### The first pass -/

/-- The counts of the entries before a place. -/
structure Counted (ind : SvcInd) (i : ℕ) (counts : Counts) : Prop where
  chars : counts.svcCharCnt.toNat = (ind.listedChars i).length % 20
  descs : counts.svcDescCnt.toNat = (ind.listedDescs i).length % 20

theorem toNat_succ_mod {count : UInt8} {n : ℕ} (count_eq : count.toNat = n % 20) :
    ((count + 1) % sdpNbInstancesMax).toNat = (n + 1) % 20 := by
  rw [UInt8.toNat_mod, UInt8.toNat_add, count_eq]
  change (n % 20 + 1) % 256 % 20 = _
  omega

theorem countPass_keeps (ind : SvcInd) : Keeps ind countPass (Counted ind) where
  char := by
    rintro i att counts next here declared ⟨chars, descs⟩ counted
    obtain rfl := Except.ok.inj counted
    obtain ⟨val, val_eq⟩ := exists_val declared
    have char : ind.CharAt i.toNat := ⟨att, here, declared⟩
    constructor
    · rw [listedChars_succ, listedChar_eq here declared val_eq, List.length_append]
      exact toNat_succ_mod chars
    · rw [listedDescs_succ, listedDesc_none fun owned => char.not_descAt owned.1]
      simpa using descs
  desc := by
    rintro i att counts next here desc owned ⟨chars, descs⟩ counted
    obtain rfl := Except.ok.inj counted
    have descAt : ind.DescAt i.toNat := ⟨att, here, desc⟩
    constructor
    · rw [listedChars_succ, listedChar_none descAt.not_charAt]
      simpa using chars
    · rw [listedDescs_succ, listedDesc_eq here desc owned, List.length_append]
      exact toNat_succ_mod descs
  leave := fun _ _ counted => counted
  skip := by
    rintro i counts noChar unowned ⟨chars, descs⟩
    constructor
    · rw [listedChars_succ, listedChar_none noChar]
      simpa using chars
    · rw [listedDescs_succ, listedDesc_none unowned]
      simpa using descs

theorem countPass_succeeds (ind : SvcInd) : Succeeds ind countPass (Counted ind) where
  char _ _ _ := ⟨_, rfl⟩
  desc _ _ _ _ := ⟨_, rfl⟩

/-! ### The second pass -/

/-- The UUID of the value of a characteristic fits its field. -/
def CharFits (ind : SvcInd) (i : ℕ) : Prop :=
  ∀ att val, ind.info[i]? = some att → ind.declares i att = true →
    ind.info[ind.valIdx att]? = some val → val.uuidLen.toNat ≤ attUuid128Len

/-- The UUID of a descriptor fits its field. -/
def DescFits (ind : SvcInd) (i : ℕ) : Prop :=
  ∀ att, ind.info[i]? = some att → att.attType = gattcSdpAttDesc → ind.Owned i →
    att.uuidLen.toNat ≤ attUuid128Len

/-- The tables hold the entries before a place. -/
structure Filled (ind : SvcInd) (charsMax descsMax i : ℕ) (tables : Tables) : Prop where
  chars : tables.chars.map PrfCharInf.listed = ind.listedChars i
  descs : tables.descs = ind.listedDescs i
  charsRoom : tables.chars.length ≤ charsMax
  descsRoom : tables.descs.length ≤ descsMax
  charsFit : ∀ k < i, CharFits ind k
  descsFit : ∀ k < i, DescFits ind k

section
variable {ind : SvcInd} {charsMax descsMax : ℕ} {i : UInt8} {att : AttInfo} {tables next : Tables}

theorem hdl_eq (ind : SvcInd) (i : UInt8) :
    ind.startHdl + 1 + i.toUInt16 = ind.hdl i.toNat := by
  apply UInt16.toNat_inj.mp
  rw [hdl, UInt16.toNat_add, UInt16.toNat_add, UInt8.toNat_toUInt16, UInt16.toNat_ofNat']
  exact Nat.mod_add_mod _ _ _

variable {k n : ℕ}

theorem valIdx_eq (short : ind.range ≤ 255) (declared : ind.declares k att = true) :
    (att.handle - ind.startHdl - 1).toUInt8.toNat = ind.valIdx att := by
  obtain ⟨val, val_eq⟩ := exists_val declared
  have inside := SvcInd.lt_range val_eq
  rw [declares, inRange, Bool.and_eq_true, Bool.and_eq_true, decide_eq_true_eq,
    decide_eq_true_eq] at declared
  have start_le : ind.startHdl ≤ att.handle := by
    rw [UInt16.le_iff_toNat_le]
    omega
  have offset := UInt16.toNat_sub_of_le _ _ start_le
  have one_le : (1 : UInt16) ≤ att.handle - ind.startHdl := by
    rw [UInt16.le_iff_toNat_le, offset]
    change 1 ≤ _
    omega
  rw [UInt16.toNat_toUInt8, UInt16.toNat_sub_of_le _ _ one_le, offset]
  change (att.handle.toNat - ind.startHdl.toNat - 1) % 256 = _
  rw [valIdx] at inside ⊢
  exact Nat.mod_eq_of_lt (by omega)

theorem copyUuid_eq_ok {uuid : List UInt8} :
    copyUuid att = .ok uuid ↔ att.uuidLen.toNat ≤ attUuid128Len ∧ att.uuid = uuid := by
  rw [copyUuid]
  split
  · rename_i fits
    rw [Except.ok.injEq, and_iff_right fits]
  · rename_i unfit
    exact iff_of_false nofun fun both => unfit both.1

theorem storeChar_eq_ok (short : ind.range ≤ 255) (declared : ind.declares i.toNat att = true) :
    storeChar ind charsMax i att tables = .ok next ↔
      ∃ val, ind.info[ind.valIdx att]? = some val ∧ tables.chars.length < charsMax ∧
        val.uuidLen.toNat ≤ attUuid128Len ∧
          next = { tables with
            chars := tables.chars ++ [⟨val.uuid, ind.hdl i.toNat, att.handle, att.prop, 0⟩] } := by
  rw [storeChar, bind_eq_ok]
  simp only [read_eq_ok, valIdx_eq short declared, hdl_eq]
  refine exists_congr fun val => and_congr_right fun _ => ?_
  split
  · rename_i room
    rw [bind_eq_ok, and_iff_right room]
    constructor
    · rintro ⟨uuid, copied, stored⟩
      obtain ⟨fits, rfl⟩ := copyUuid_eq_ok.mp copied
      exact ⟨fits, (Except.ok.inj stored).symm⟩
    · rintro ⟨fits, rfl⟩
      exact ⟨_, copyUuid_eq_ok.mpr ⟨fits, rfl⟩, rfl⟩
  · rename_i full
    exact iff_of_false nofun fun both => full both.1

theorem storeDesc_eq_ok :
    storeDesc ind descsMax i att tables = .ok next ↔
      tables.descs.length < descsMax ∧ att.uuidLen.toNat ≤ attUuid128Len ∧
        next = { tables with
          descs := tables.descs ++
            [⟨att.uuid, .ofNat (tables.chars.length - 1), ind.hdl i.toNat⟩] } := by
  rw [storeDesc, hdl_eq]
  split
  · rename_i room
    rw [bind_eq_ok, and_iff_right room]
    constructor
    · rintro ⟨uuid, copied, stored⟩
      obtain ⟨fits, rfl⟩ := copyUuid_eq_ok.mp copied
      exact ⟨fits, (Except.ok.inj stored).symm⟩
    · rintro ⟨fits, rfl⟩
      exact ⟨_, copyUuid_eq_ok.mpr ⟨fits, rfl⟩, rfl⟩
  · rename_i full
    exact iff_of_false nofun fun both => full both.1

theorem desc_eq_storeDesc (some_range : 0 < ind.range) :
    (fillPass ind charsMax descsMax).desc i att tables = storeDesc ind descsMax i att tables := by
  have skips (rounds : List ℕ) (tables : Tables) :
      (rounds.map Nat.succ).foldlM (fun tables svcDesc =>
        if svcDesc = 0 then storeDesc ind descsMax i att tables else pure tables) tables =
          (pure tables : Except Stop Tables) := by
    induction rounds with
    | nil => rfl
    | cons round rounds induction => exact induction
  obtain ⟨n, range_eq⟩ := Nat.exists_eq_succ_of_ne_zero (Nat.ne_of_gt some_range)
  rw [fillPass, range_eq]
  simp only [List.range_succ_eq_map, List.foldlM_cons, if_true, skips]
  exact bind_pure _

theorem forall_lt_succ {good : ℕ → Prop} (before : ∀ k < n, good k) (last : good n) :
    ∀ k < n + 1, good k := fun k inside =>
  (Nat.lt_or_eq_of_le (Nat.le_of_lt_succ inside)).elim (before k) fun same => same ▸ last

theorem fillPass_keeps (short : ind.range ≤ 255) :
    Keeps ind (fillPass ind charsMax descsMax) (Filled ind charsMax descsMax) where
  char := by
    intro i att tables next here declared filled stored
    obtain ⟨val, val_eq, room, fits, rfl⟩ := (storeChar_eq_ok short declared).mp stored
    have char : ind.CharAt i.toNat := ⟨att, here, declared⟩
    refine ⟨?_, ?_, ?_, filled.descsRoom, forall_lt_succ filled.charsFit ?_,
      forall_lt_succ filled.descsFit ?_⟩
    · rw [listedChars_succ, listedChar_eq here declared val_eq, List.map_append, filled.chars]
      rfl
    · rw [listedDescs_succ, listedDesc_none fun owned => char.not_descAt owned.1]
      simpa using filled.descs
    · rw [List.length_append]
      exact room
    · intro other val' here' _ val_eq'
      obtain rfl := Option.some.inj (here.symm.trans here')
      obtain rfl := Option.some.inj (val_eq.symm.trans val_eq')
      exact fits
    · intro other here' desc _
      exact absurd ⟨other, here', desc⟩ char.not_descAt
  desc := by
    intro i att tables next here desc owned filled stored
    rw [desc_eq_storeDesc (Nat.zero_lt_of_lt (SvcInd.lt_range here))] at stored
    obtain ⟨room, fits, rfl⟩ := storeDesc_eq_ok.mp stored
    have descAt : ind.DescAt i.toNat := ⟨att, here, desc⟩
    have length_eq : tables.chars.length = (ind.listedChars i.toNat).length := by
      rw [← filled.chars, List.length_map]
    refine ⟨?_, ?_, filled.charsRoom, ?_, forall_lt_succ filled.charsFit ?_,
      forall_lt_succ filled.descsFit ?_⟩
    · rw [listedChars_succ, listedChar_none descAt.not_charAt]
      simpa using filled.chars
    · rw [listedDescs_succ, listedDesc_eq here desc owned, filled.descs, length_eq]
      rfl
    · rw [List.length_append]
      exact room
    · intro other val here' declared _
      exact absurd ⟨other, here', declared⟩ descAt.not_charAt
    · intro other here' _ _
      obtain rfl := Option.some.inj (here.symm.trans here')
      exact fits
  leave := by
    rintro i tables charIdx last ⟨chars, descs, charsRoom, descsRoom, charsFit, descsFit⟩
    refine ⟨?_, descs, ?_, descsRoom, charsFit, descsFit⟩
    · rw [← chars]
      apply List.ext_getElem?
      intro k
      simp only [fillPass, List.getElem?_map, List.getElem?_modify]
      rcases tables.chars[k]? with _ | char
      · rfl
      · simp only [Option.map_eq_map, Option.map_some]
        split <;> rfl
    · simpa [fillPass] using charsRoom
  skip := by
    rintro i tables noChar unowned ⟨chars, descs, charsRoom, descsRoom, charsFit, descsFit⟩
    refine ⟨?_, ?_, charsRoom, descsRoom, forall_lt_succ charsFit ?_, forall_lt_succ descsFit ?_⟩
    · rw [listedChars_succ, listedChar_none noChar]
      simpa using chars
    · rw [listedDescs_succ, listedDesc_none unowned]
      simpa using descs
    · intro att val here declared _
      exact absurd ⟨att, here, declared⟩ noChar
    · intro att here desc owned
      exact absurd ⟨⟨att, here, desc⟩, owned⟩ unowned

theorem length_listedChars_mono (ind : SvcInd) (le : k ≤ n) :
    (ind.listedChars k).length ≤ (ind.listedChars n).length :=
  ((List.range_sublist.mpr le).filterMap _).length_le

theorem length_listedDescs_mono (ind : SvcInd) (le : k ≤ n) :
    (ind.listedDescs k).length ≤ (ind.listedDescs n).length :=
  ((List.range_sublist.mpr le).filterMap _).length_le

theorem fillPass_succeeds (short : ind.range ≤ 255)
    (charsRoom : (ind.listedChars ind.range).length ≤ charsMax)
    (descsRoom : (ind.listedDescs ind.range).length ≤ descsMax)
    (fit : ∀ k, CharFits ind k ∧ DescFits ind k) :
    Succeeds ind (fillPass ind charsMax descsMax) (Filled ind charsMax descsMax) where
  char := by
    intro i att tables here declared filled
    obtain ⟨val, val_eq⟩ := exists_val declared
    have room : tables.chars.length < charsMax := by
      have more := length_listedChars_mono ind (Nat.succ_le_of_lt (SvcInd.lt_range here))
      rw [Nat.succ_eq_add_one, listedChars_succ, listedChar_eq here declared val_eq,
        List.length_append, ← filled.chars, List.length_map] at more
      exact lt_of_lt_of_le (Nat.lt_succ_self _) (Nat.le_trans more charsRoom)
    exact ⟨_, (storeChar_eq_ok short declared).mpr
      ⟨val, val_eq, room, (fit i.toNat).1 att val here declared val_eq, rfl⟩⟩
  desc := by
    intro i att tables here desc owned filled
    have room : tables.descs.length < descsMax := by
      have more := length_listedDescs_mono ind (Nat.succ_le_of_lt (SvcInd.lt_range here))
      rw [Nat.succ_eq_add_one, listedDescs_succ, listedDesc_eq here desc owned,
        List.length_append, ← filled.descs] at more
      exact lt_of_lt_of_le (Nat.lt_succ_self _) (Nat.le_trans more descsRoom)
    rw [desc_eq_storeDesc (Nat.zero_lt_of_lt (SvcInd.lt_range here))]
    exact ⟨_, storeDesc_eq_ok.mpr ⟨room, (fit i.toNat).2 att here desc owned, rfl⟩⟩

end

/-! ### Both passes -/

/-- The contents list the characteristics with a value handle in the range and their descriptors, in
the order of their handles. -/
structure Lists (ind : SvcInd) (cont : SdpContent) : Prop where
  shdl : cont.shdl = ind.startHdl
  ehdl : cont.ehdl = ind.endHdl
  chars : cont.charsInf.map PrfCharInf.listed = ind.listedChars ind.range
  descs : cont.descsInf = ind.listedDescs ind.range
  charsOrder : cont.charsInf.Pairwise fun first next => first.charHdl < next.charHdl
  descsOrder : cont.descsInf.Pairwise fun first next => first.descHdl < next.descHdl

/-- The function returns, and what it stores lists the service. -/
def Extracts (ind : SvcInd) (memory : Memory) : Prop :=
  ∃ fuel result, sdpExtractSvcInfo fuel ind memory = .ok result ∧
    ∀ freeEnvIdx cont, result = some (freeEnvIdx, cont) → Lists ind cont

/-- There is room to store the service, by the counts of the first pass. -/
def Admitted (ind : SvcInd) (memory : Memory) : Prop :=
  memory.checkMalloc (sizeofPrfCharInf * ((ind.listedChars ind.range).length % 20) +
    sizeofPrfCharDescInf * ((ind.listedDescs ind.range).length % 20)) = true ∧
  ∃ freeEnvIdx, sdpServiceFreeEnvFind memory = some freeEnvIdx

/-- A table has room for its entries: the count did not start again, and it was allocated. -/
def Room (allocated : Bool) (entries : ℕ) : Prop :=
  entries = 0 ∨ allocated = true ∧ entries < 20

/-- The condition under which a service is extracted. -/
structure Manageable (ind : SvcInd) (memory : Memory) : Prop where
  short : ind.range ≤ 255
  followed : ∀ c, ind.CharAt c → ∃ m, c < m ∧ ind.StopsAt m
  charsRoom : Admitted ind memory → Room memory.chars (ind.listedChars ind.range).length
  descsRoom : Admitted ind memory → Room memory.descs (ind.listedDescs ind.range).length
  fit : Admitted ind memory → ∀ k, CharFits ind k ∧ DescFits ind k

section
variable {ind : SvcInd}

theorem room_iff (allocated : Bool) (entries : ℕ) :
    Room allocated entries ↔ entries ≤ if allocated then entries % 20 else 0 := by
  rw [Room]
  cases allocated
  · simp
  · simp only [true_and, if_true]
    omega

theorem hdl_lt {i k : ℕ} (earlier : i < k) (inside : k < ind.range) : ind.hdl i < ind.hdl k := by
  have := ind.endHdl.toNat_lt
  rw [range] at inside
  rw [UInt16.lt_iff_toNat_lt, hdl, hdl, UInt16.toNat_ofNat', UInt16.toNat_ofNat',
    Nat.mod_eq_of_lt (by omega), Nat.mod_eq_of_lt (by omega)]
  omega

theorem charHdl_of_listedChar {i : ℕ} {char : Listed} (listed : ind.listedChar i = some char) :
    char.charHdl = ind.hdl i := by
  by_contra differs
  rcases here : ind.info[i]? with _ | att
  · simp [listedChar, here] at listed
  · cases declared : ind.declares i att with
    | false => simp [listedChar, here, declared] at listed
    | true =>
        obtain ⟨val, val_eq⟩ := exists_val declared
        rw [listedChar_eq here declared val_eq] at listed
        exact differs (Option.some.inj listed ▸ rfl)

theorem descHdl_of_listedDesc {i : ℕ} {desc : PrfCharDescInf}
    (listed : ind.listedDesc i = some desc) : desc.descHdl = ind.hdl i := by
  by_cases owned : ind.DescAt i ∧ ind.Owned i
  · obtain ⟨⟨att, here, type_eq⟩, owned⟩ := owned
    rw [listedDesc_eq here type_eq owned] at listed
    exact Option.some.inj listed ▸ rfl
  · rw [listedDesc_none owned] at listed
    exact nomatch listed

theorem pairwise_filterMap_range (ind : SvcInd) {α : Type} {entry : ℕ → Option α}
    {handle : α → UInt16} (handle_eq : ∀ {i value}, entry i = some value → handle value = ind.hdl i) :
    ((List.range ind.range).filterMap entry).Pairwise fun first next =>
      handle first < handle next := by
  rw [List.pairwise_filterMap]
  refine List.Pairwise.imp_of_mem ?_ List.pairwise_lt_range
  intro i k _ inside earlier first first_eq next next_eq
  rw [handle_eq first_eq, handle_eq next_eq]
  exact hdl_lt earlier (List.mem_range.mp inside)

variable {charsMax descsMax : ℕ} {tables : Tables} {counts : Counts} {fuel : ℕ}

theorem Filled.lists (filled : Filled ind charsMax descsMax ind.range tables) :
    Lists ind ⟨ind.startHdl, ind.endHdl, ind.uuid, tables.chars, tables.descs, 0⟩ where
  shdl := rfl
  ehdl := rfl
  chars := filled.chars
  descs := filled.descs
  charsOrder := by
    have ordered := pairwise_filterMap_range ind charHdl_of_listedChar
    rw [← listedChars, ← filled.chars, List.pairwise_map] at ordered
    exact ordered
  descsOrder := by
    rw [filled.descs]
    exact pairwise_filterMap_range ind descHdl_of_listedDesc

theorem counted_zero (ind : SvcInd) : Counted ind 0 ⟨0, 0⟩ := ⟨rfl, rfl⟩

theorem filled_zero (ind : SvcInd) (charsMax descsMax : ℕ) :
    Filled ind charsMax descsMax 0 ⟨[], []⟩ :=
  ⟨rfl, rfl, Nat.zero_le _, Nat.zero_le _, fun _ inside => absurd inside (Nat.not_lt_zero _),
    fun _ inside => absurd inside (Nat.not_lt_zero _)⟩

theorem not_owned_zero (ind : SvcInd) : ¬ind.Owned 0 :=
  fun ⟨_, before, _⟩ => Nat.not_lt_zero _ before

theorem Counted.mallocSize_eq (counted : Counted ind ind.range counts) :
    sizeofPrfCharInf * counts.svcCharCnt.toNat + sizeofPrfCharDescInf * counts.svcDescCnt.toNat =
      sizeofPrfCharInf * ((ind.listedChars ind.range).length % 20) +
        sizeofPrfCharDescInf * ((ind.listedDescs ind.range).length % 20) := by
  rw [counted.chars, counted.descs]

theorem pure_eq_ok {α : Type} {value result : α} :
    (pure value : Except Stop α) = .ok result ↔ result = value := by
  rw [eq_comm (a := result)]
  exact Except.ok.injEq value result ▸ Iff.rfl

def roomFor (allocated : Bool) (count : UInt8) : ℕ := if allocated then count.toNat else 0

theorem sdpExtractSvcInfo_eq_ok {memory : Memory} {result : Option (ℕ × SdpContent)} :
    sdpExtractSvcInfo fuel ind memory = .ok result ↔
      ∃ counts, ind.scan countPass fuel 0 ⟨0, 0⟩ = .ok counts ∧
        if memory.checkMalloc (sizeofPrfCharInf * counts.svcCharCnt.toNat +
          sizeofPrfCharDescInf * counts.svcDescCnt.toNat) then
          match sdpServiceFreeEnvFind memory with
          | none => result = none
          | some freeEnvIdx =>
              ∃ tables, ind.scan (fillPass ind (roomFor memory.chars counts.svcCharCnt)
                (roomFor memory.descs counts.svcDescCnt)) fuel 0 ⟨[], []⟩ = .ok tables ∧
                result = some (freeEnvIdx,
                  ⟨ind.startHdl, ind.endHdl, ind.uuid, tables.chars, tables.descs, 0⟩)
        else result = none := by
  rw [sdpExtractSvcInfo, bind_eq_ok]
  refine exists_congr fun counts => and_congr_right fun _ => ?_
  by_cases enough : memory.checkMalloc (sizeofPrfCharInf * counts.svcCharCnt.toNat +
    sizeofPrfCharDescInf * counts.svcDescCnt.toNat) = true
  · rw [if_pos enough, if_pos enough]
    cases sdpServiceFreeEnvFind memory with
    | none => exact pure_eq_ok
    | some freeEnvIdx =>
        dsimp only
        rw [bind_eq_ok]
        refine exists_congr fun tables => and_congr_right fun _ => ?_
        exact pure_eq_ok
  · rw [if_neg enough, if_neg enough]
    exact pure_eq_ok

theorem counted_of_scan (short : ind.range ≤ 255)
    (scanned : ind.scan countPass fuel 0 ⟨0, 0⟩ = .ok counts) :
    Counted ind ind.range counts ∧ ∀ c, ind.CharAt c → ∃ m, c < m ∧ ind.StopsAt m := by
  obtain ⟨counted, followed⟩ := scan_sound (countPass_keeps ind) short scanned (Nat.zero_le _)
    (Or.inr (not_owned_zero ind)) (counted_zero ind)
  exact ⟨counted, fun c => followed c (Nat.zero_le c)⟩

theorem filled_of_scan (short : ind.range ≤ 255)
    (scanned : ind.scan (fillPass ind charsMax descsMax) fuel 0 ⟨[], []⟩ = .ok tables) :
    Filled ind charsMax descsMax ind.range tables :=
  (scan_sound (fillPass_keeps short) short scanned (Nat.zero_le _)
    (Or.inr (not_owned_zero ind)) (filled_zero ind charsMax descsMax)).1

theorem Filled.room (filled : Filled ind charsMax descsMax ind.range tables) :
    (ind.listedChars ind.range).length ≤ charsMax ∧
      (ind.listedDescs ind.range).length ≤ descsMax := by
  rw [← filled.chars, ← filled.descs, List.length_map]
  exact ⟨filled.charsRoom, filled.descsRoom⟩

theorem Filled.fit (filled : Filled ind charsMax descsMax ind.range tables) (k : ℕ) :
    CharFits ind k ∧ DescFits ind k := by
  by_cases inside : k < ind.range
  · exact ⟨filled.charsFit k inside, filled.descsFit k inside⟩
  · exact ⟨fun att val here => absurd (SvcInd.lt_range here) inside,
      fun att here => absurd (SvcInd.lt_range here) inside⟩

/-- A service is extracted exactly if its entries have indexes of eight bits, a declaration or an
included service follows each of its characteristics, and, when it is stored, the tables have room
for their entries and the entries for their UUIDs. -/
theorem extracts_iff (ind : SvcInd) (memory : Memory) :
    Extracts ind memory ↔ Manageable ind memory := by
  constructor
  · rintro ⟨fuel, result, extracted, -⟩
    obtain ⟨counts, scanned, onward⟩ := sdpExtractSvcInfo_eq_ok.mp extracted
    have short : ind.range ≤ 255 := by
      by_contra long
      exact scan_ne_ok (not_le.mp long) _ _ _ _ scanned
    obtain ⟨counted, followed⟩ := counted_of_scan short scanned
    have filled : Admitted ind memory → ∃ tables, Filled ind
        (roomFor memory.chars counts.svcCharCnt) (roomFor memory.descs counts.svcDescCnt)
          ind.range tables := by
      rintro ⟨enough, freeEnvIdx, free⟩
      rw [counted.mallocSize_eq, if_pos enough, free] at onward
      obtain ⟨tables, stored, -⟩ := onward
      exact ⟨tables, filled_of_scan short stored⟩
    refine ⟨short, followed, fun admitted => ?_, fun admitted => ?_, fun admitted => ?_⟩
    · obtain ⟨tables, filled⟩ := filled admitted
      rw [room_iff, ← counted.chars]
      exact filled.room.1
    · obtain ⟨tables, filled⟩ := filled admitted
      rw [room_iff, ← counted.descs]
      exact filled.room.2
    · obtain ⟨tables, filled⟩ := filled admitted
      exact filled.fit
  · rintro ⟨short, followed, charsRoom, descsRoom, fit⟩
    have apart : ind.StopsAt (0 : UInt8).toNat ∨ ¬ind.Owned (0 : UInt8).toNat :=
      Or.inr (not_owned_zero ind)
    obtain ⟨counts, scanned⟩ := scan_total (countPass_keeps ind) (countPass_succeeds ind) short
      followed (Nat.lt_succ_self ind.range) (Nat.zero_le _) apart (counted_zero ind)
    obtain ⟨counted, -⟩ := counted_of_scan short scanned
    by_cases admitted : Admitted ind memory
    · obtain ⟨enough, freeEnvIdx, free⟩ := id admitted
      have charsRoom := charsRoom admitted
      have descsRoom := descsRoom admitted
      rw [room_iff, ← counted.chars] at charsRoom
      rw [room_iff, ← counted.descs] at descsRoom
      obtain ⟨tables, stored⟩ := scan_total (fillPass_keeps short)
        (fillPass_succeeds short charsRoom descsRoom (fit admitted)) short followed
        (Nat.lt_succ_self ind.range) (Nat.zero_le _) apart (filled_zero ind _ _)
      refine ⟨ind.range + 1, some (freeEnvIdx,
        ⟨ind.startHdl, ind.endHdl, ind.uuid, tables.chars, tables.descs, 0⟩),
        sdpExtractSvcInfo_eq_ok.mpr ⟨counts, scanned, ?_⟩, ?_⟩
      · rw [counted.mallocSize_eq, if_pos enough, free]
        exact ⟨tables, stored, rfl⟩
      · rintro idx cont ⟨⟩
        exact (filled_of_scan short stored).lists
    · refine ⟨ind.range + 1, none, sdpExtractSvcInfo_eq_ok.mpr ⟨counts, scanned, ?_⟩, nofun⟩
      rw [counted.mallocSize_eq]
      split
      · rename_i enough
        cases free : sdpServiceFreeEnvFind memory with
        | none => rfl
        | some freeEnvIdx => exact absurd ⟨enough, freeEnvIdx, free⟩ admitted
      · rfl

end

/-- A service whose only characteristic is the last: a declaration and its value, with handles 2
and 3. -/
def singleCharacteristic : SvcInd where
  uuid := [0x0f, 0x18]
  startHdl := 1
  endHdl := 3
  info := [⟨gattcSdpAttChar, 0x12, [3, 0]⟩, ⟨3, 2, [0x19, 0x2a]⟩]
  length_eq := rfl

/-- The walk behind the last characteristic reads the entry behind the array, whatever memory there
is. -/
theorem last_characteristic_reads_outside :
    (∀ fuel memory, sdpExtractSvcInfo (fuel + 4) singleCharacteristic memory =
      .error (.readsOutside 2)) ∧
    ∀ memory, ¬Extracts singleCharacteristic memory := by
  have lost (memory : Memory) : ¬Extracts singleCharacteristic memory := by
    rintro ⟨fuel, result, extracted, -⟩
    obtain ⟨counts, scanned, -⟩ := sdpExtractSvcInfo_eq_ok.mp extracted
    obtain ⟨-, followed⟩ := counted_of_scan (by decide) scanned
    obtain ⟨m, behind, stops⟩ := followed 0 ⟨_, rfl, rfl⟩
    have inside : m < 2 := stops.lt_range
    obtain rfl : m = 1 := by omega
    exact absurd stops (by decide)
  exact ⟨fun _ _ => rfl, lost⟩

end BdkFreertos.Sdp
