import BdkFreertos.Machine
import Mathlib.Algebra.GroupWithZero.Nat
import Mathlib.Data.Finset.Card
import Mathlib.Data.List.Nodup

/-!
# The disk that is not there

`ghostfat.c` shows a host a FAT disk whose sectors are made up when they are read, and takes the
blocks of a new firmware from the sectors that are written.
-/

namespace BdkFreertos.GhostFat

/-! ## The disk -/

/-- `UF2_DIV_CEIL`. -/
def divCeil (v d : ℕ) : ℕ :=
  v / d + if v % d ≠ 0 then 1 else 0

/-- `FS_START_FAT0_SECTOR`. -/
def fsStartFat0Sector : ℕ := 1

def bpbSectorsPerFat : ℕ := divCeil 0x10109 256

def fsStartRootdirSector : ℕ := fsStartFat0Sector + 2 * bpbSectorsPerFat

def fsStartClustersSector : ℕ := fsStartRootdirSector + 4

def clusterCount : ℕ := 0x10109 - fsStartClustersSector

def fatEndOfChain : ℕ := 0xFFFF

/-- `FileContent_t`; `CURRENT.UF2` has no content. -/
structure FileContent where
  name : String
  content : Option (List UInt8)
  size : ℕ
  clusterStart : ℕ
  clusterEnd : ℕ

/-- The fields of a `DirEntry` that depend on the file. -/
structure DirEntry where
  name : String
  attrs : ℕ
  startCluster : ℕ
  size : ℕ

/-- `UF2_Block`. -/
structure Uf2Block where
  magicStart0 : UInt32
  magicStart1 : UInt32
  flags : UInt32
  targetAddr : ℕ
  payloadSize : ℕ
  blockNo : ℕ
  numBlocks : ℕ
  familyID : UInt32
  data : List UInt8
  magicEnd : UInt32

/-- What a sector holds. -/
inductive Sector
  | boot
  | fat (data16 : List ℕ)
  | root (entries : List DirEntry)
  | bytes (data : List UInt8)
  | uf2 (block : Uf2Block)

/-- `init_starting_clusters` from a cluster on. -/
def initStartingClusters : ℕ → List FileContent → List FileContent
  | _, [] => []
  | startCluster, file :: files =>
      let clusterEnd := (startCluster + divCeil file.size 512 + 65535) % 65536
      { file with clusterStart := startCluster, clusterEnd := clusterEnd } ::
        initStartingClusters ((clusterEnd + 1) % 65536) files

def infoIndexOf (info : List FileContent) (cluster : ℕ) : ℕ :=
  if cluster ≥ 0xFFF0 then info.length - 1
  else
    (info.findIdx? fun file => file.clusterStart ≤ cluster ∧ cluster ≤ file.clusterEnd).getD
      (info.length - 1)

/-- `info` after `uf2_init` on a flash of some size. -/
def uf2Init (texts : List (String × List UInt8)) (flashSize : ℕ) : List FileContent :=
  initStartingClusters 2
    ((texts.map fun text => ⟨text.1, some text.2, text.2.length, 0, 0⟩) ++
      [⟨"CURRENT UF2", none, flashSize / 256 * 512, 0, 0⟩])

/-- A sector of the FAT. -/
def fatSector (info : List FileContent) (sectionRelativeSector : ℕ) : List ℕ :=
  let sectorFirstCluster := sectionRelativeSector * 256
  let firstUnusedCluster := (info.getLast?.elim 0 FileContent.clusterEnd) + 1
  let data16 := (List.range 256).map fun i =>
    if i + sectorFirstCluster ≥ firstUnusedCluster then 0 else (i + sectorFirstCluster + 1) % 65536
  let data16 :=
    if sectionRelativeSector = 0 then (data16.set 0 0xFFF8).set 1 fatEndOfChain else data16
  info.foldl (fun data16 file =>
    if file.clusterEnd ≥ sectorFirstCluster then
      if file.clusterEnd - sectorFirstCluster < 256 then
        data16.set (file.clusterEnd - sectorFirstCluster) fatEndOfChain
      else data16
    else data16) data16

/-- The entry of a file. -/
def dirEntry (file : FileContent) : DirEntry :=
  ⟨file.name, 0, file.clusterStart, file.size⟩

/-- A sector of the root directory. -/
def rootSector (info : List FileContent) (sectionRelativeSector : ℕ) : List DirEntry :=
  if sectionRelativeSector = 0 then
    ⟨"CherryUF2  ", 0x28, 0, 0⟩ :: (info.take 15).map dirEntry
  else ((info.drop (16 * sectionRelativeSector - 1)).take 16).map dirEntry

/-- A block of `CURRENT.UF2`, made from the flash. -/
def currentBlock (flash : ℕ → UInt8) (flashSize fileRelativeSector : ℕ) : Uf2Block where
  magicStart0 := 0x0A324655
  magicStart1 := 0x9E5D5157
  flags := 0x2000
  targetAddr := fileRelativeSector * 256
  payloadSize := 256
  blockNo := fileRelativeSector
  numBlocks := flashSize / 256
  familyID := 0xe9f35d3b
  data := (List.range 256).map fun i => flash (fileRelativeSector * 256 + i)
  magicEnd := 0x0AB16F30

/-- A sector of a file. -/
def fileSector (flash : ℕ → UInt8) (flashSize : ℕ) (file : FileContent)
    (fileRelativeSector : ℕ) : Sector :=
  match file.content with
  | some content =>
      let data := (content.drop (fileRelativeSector * 512)).take 512
      .bytes (data ++ List.replicate (512 - data.length) 0)
  | none =>
      if fileRelativeSector * 256 < flashSize then
        .uf2 (currentBlock flash flashSize fileRelativeSector)
      else .bytes (List.replicate 512 0)

def uf2ReadBlock (flash : ℕ → UInt8) (flashSize : ℕ) (info : List FileContent) (blockNo : ℕ) :
    Sector :=
  if blockNo = 0 then .boot
  else if blockNo < fsStartRootdirSector then
    let sectionRelativeSector := blockNo - fsStartFat0Sector
    .fat (fatSector info
      (if sectionRelativeSector ≥ bpbSectorsPerFat then sectionRelativeSector - bpbSectorsPerFat
      else sectionRelativeSector))
  else if blockNo < fsStartClustersSector then
    .root (rootSector info (blockNo - fsStartRootdirSector))
  else if blockNo < 0x10109 then
    let sectionRelativeSector := blockNo - fsStartClustersSector
    match info[infoIndexOf info (2 + sectionRelativeSector)]? with
    | some file =>
        fileSector flash flashSize file (sectionRelativeSector - (file.clusterStart - 2))
    | none => .bytes (List.replicate 512 0)
  else .bytes (List.replicate 512 0)

/-! ## A host reads a file -/

/-- The entry of a cluster in one of the two FATs. -/
def fatOf (disk : ℕ → Sector) (copy cluster : ℕ) : ℕ :=
  match disk (fsStartFat0Sector + copy * bpbSectorsPerFat + cluster / 256) with
  | .fat data16 => data16.getD (cluster % 256) 0
  | _ => 0

/-- The entry of a file, which stands behind that of the volume label. -/
def entryOf (disk : ℕ → Sector) (index : ℕ) : Option DirEntry :=
  match disk (fsStartRootdirSector + (index + 1) / 16) with
  | .root entries => entries[(index + 1) % 16]?
  | _ => none

/-- The clusters from one on, as far as the host follows them. -/
def chain (fat : ℕ → ℕ) : ℕ → ℕ → List ℕ
  | 0, _ => []
  | fuel + 1, cluster =>
      cluster :: if fat cluster = fatEndOfChain then [] else chain fat fuel (fat cluster)

/-- The sectors of a file. -/
def hostFile (disk : ℕ → Sector) (copy index : ℕ) : List Sector :=
  match entryOf disk index with
  | some entry =>
      (chain (fatOf disk copy) 65536 entry.startCluster).map fun cluster =>
        disk (fsStartClustersSector + (cluster - 2))
  | none => []

/-- The files lie on clusters of their own, one after the other. -/
structure Laid (info : List FileContent) : Prop where
  span : ∀ file ∈ info,
    2 ≤ file.clusterStart ∧ file.clusterStart ≤ file.clusterEnd ∧
      file.clusterEnd < clusterCount + 2
  apart : info.Pairwise fun file later => file.clusterEnd < later.clusterStart

theorem bpbSectorsPerFat_eq : bpbSectorsPerFat = 258 := rfl

theorem fsStartRootdirSector_eq : fsStartRootdirSector = 517 := rfl

theorem fsStartClustersSector_eq : fsStartClustersSector = 521 := rfl

theorem clusterCount_eq : clusterCount = 65280 := rfl

variable {start : ℕ} {state : WriteState} {numbers : Finset ℕ} (blocks : List Uf2Block)

theorem initStartingClusters_laid {files : List FileContent} (first : 2 ≤ start)
    (nonempty : ∀ file ∈ files, 0 < file.size)
    (fits : start + (files.map fun file => divCeil file.size 512).sum ≤ clusterCount + 2) :
    Laid (initStartingClusters start files) ∧
      (∀ file ∈ initStartingClusters start files, start ≤ file.clusterStart) ∧
      ∀ file ∈ initStartingClusters start files,
        file.clusterEnd + 1 = file.clusterStart + divCeil file.size 512 := by
  induction files generalizing start with
  | nil => exact ⟨⟨by simp [initStartingClusters], .nil⟩, by simp [initStartingClusters]⟩
  | cons file files induction =>
      have some_cluster : 0 < divCeil file.size 512 := by
        have := nonempty file List.mem_cons_self
        unfold divCeil
        split_ifs <;> omega
      rw [clusterCount_eq, List.map_cons, List.sum_cons] at fits
      have end_eq : (start + divCeil file.size 512 + 65535) % 65536 =
          start + divCeil file.size 512 - 1 := by omega
      have next_eq : (start + divCeil file.size 512 - 1 + 1) % 65536 =
          start + divCeil file.size 512 := by omega
      obtain ⟨⟨span, apart⟩, later, count⟩ :=
        @induction (start + divCeil file.size 512) (by omega)
          (fun file member => nonempty file (List.mem_cons_of_mem _ member))
          (by rw [clusterCount_eq]; omega)
      simp only [initStartingClusters, end_eq, next_eq]
      refine ⟨⟨?_, List.pairwise_cons.mpr ⟨fun other member => ?_, apart⟩⟩, ?_, ?_⟩
      · exact List.forall_mem_cons.mpr
          ⟨⟨first, by dsimp only; omega, by dsimp only [clusterCount_eq]; omega⟩, span⟩
      · have := later other member
        dsimp only
        omega
      · exact List.forall_mem_cons.mpr
          ⟨le_rfl, fun other member => (Nat.le_add_right ..).trans (later other member)⟩
      · exact List.forall_mem_cons.mpr ⟨by dsimp only; omega, count⟩

theorem chain_eq_range' {fat : ℕ → ℕ} {count fuel : ℕ} (enough : count < fuel)
    (small : start + count < fatEndOfChain)
    (linked : ∀ cluster, start ≤ cluster → cluster ≤ start + count →
      fat cluster = if cluster = start + count then fatEndOfChain else cluster + 1) :
    chain fat fuel start = List.range' start (count + 1) := by
  induction count generalizing start fuel with
  | zero =>
      obtain ⟨fuel, rfl⟩ := Nat.exists_eq_succ_of_ne_zero enough.ne'
      rw [chain, if_pos (by rw [linked start le_rfl le_rfl, if_pos (by omega)])]
      rfl
  | succ count induction =>
      obtain ⟨fuel, rfl⟩ := Nat.exists_eq_succ_of_ne_zero (by omega : fuel ≠ 0)
      have next_eq : fat start = start + 1 := by
        rw [linked start le_rfl (by omega), if_neg (by omega)]
      rw [chain, next_eq, if_neg (by omega), List.range'_succ]
      refine congrArg _ (induction (by omega) (by omega) fun cluster from_next to_end => ?_)
      rw [linked cluster (by omega) (by omega)]
      exact if_congr (by omega) rfl rfl

section Laid

variable {info : List FileContent} (laid : Laid info) {flash : ℕ → UInt8} {flashSize : ℕ}

variable {blockNo i j cluster copy : ℕ}

theorem uf2ReadBlock_fat (after : fsStartFat0Sector ≤ blockNo)
    (before : blockNo < fsStartRootdirSector) :
    uf2ReadBlock flash flashSize info blockNo =
      .fat (fatSector info ((blockNo - fsStartFat0Sector) % bpbSectorsPerFat)) := by
  rw [uf2ReadBlock, if_neg (Nat.ne_of_gt after), if_pos before]
  rw [fsStartRootdirSector_eq] at before
  rw [fsStartFat0Sector, bpbSectorsPerFat_eq] at *
  dsimp only
  congr 2
  split_ifs <;> omega

theorem uf2ReadBlock_root (after : fsStartRootdirSector ≤ blockNo)
    (before : blockNo < fsStartClustersSector) :
    uf2ReadBlock flash flashSize info blockNo =
      .root (rootSector info (blockNo - fsStartRootdirSector)) := by
  have behind_boot : blockNo ≠ 0 := by
    rw [fsStartRootdirSector_eq] at after
    omega
  rw [uf2ReadBlock, if_neg behind_boot, if_neg after.not_gt, if_pos before]

theorem getElem?_marks (info : List FileContent) (first : ℕ) (data16 : List ℕ) {r : ℕ}
    (inside : r < 256) (r_lt : r < data16.length) :
    (info.foldl (fun data16 file =>
      if file.clusterEnd ≥ first then
        if file.clusterEnd - first < 256 then data16.set (file.clusterEnd - first) fatEndOfChain
        else data16
      else data16) data16)[r]? =
      if ∃ file ∈ info, file.clusterEnd = first + r then some fatEndOfChain else data16[r]? := by
  induction info generalizing data16 with
  | nil => simp
  | cons file files induction =>
      rw [List.foldl_cons, induction]
      · split_ifs <;> simp_all <;> grind
      · split_ifs <;> simpa using r_lt

include laid

theorem Laid.inside (i_lt : i < info.length) :
    2 ≤ info[i].clusterStart ∧ info[i].clusterStart ≤ info[i].clusterEnd ∧
      info[i].clusterEnd < 65282 :=
  laid.span _ (List.getElem_mem i_lt)

theorem Laid.apart_of_lt (ordered : i < j) (inside : j < info.length) :
    info[i].clusterEnd < info[j].clusterStart :=
  List.pairwise_iff_getElem.mp laid.apart i j _ inside ordered

section

variable (i_lt : i < info.length)
include i_lt

theorem Laid.index_eq (j_lt : j < info.length)
    (at_i : info[i].clusterStart ≤ cluster ∧ cluster ≤ info[i].clusterEnd)
    (at_j : info[j].clusterStart ≤ cluster ∧ cluster ≤ info[j].clusterEnd) : i = j := by
  rcases lt_trichotomy i j with before | same | after
  · have := laid.apart_of_lt before j_lt
    omega
  · exact same
  · have := laid.apart_of_lt after i_lt
    omega

theorem Laid.end_le_last : info[i].clusterEnd ≤ info.getLast?.elim 0 FileContent.clusterEnd := by
  have last_lt : info.length - 1 < info.length := by omega
  rw [List.getLast?_eq_getElem?, List.getElem?_eq_getElem last_lt, Option.elim_some]
  rcases (Nat.le_sub_one_of_lt i_lt).lt_or_eq with before | same
  · have := laid.apart_of_lt before last_lt
    have := laid.inside last_lt
    omega
  · simp [same]

section

variable (inside : info[i].clusterStart ≤ cluster ∧ cluster ≤ info[i].clusterEnd)
include inside

theorem infoIndexOf_eq : infoIndexOf info cluster = i := by
  have small := laid.inside i_lt
  have found : info.findIdx? (fun file => file.clusterStart ≤ cluster ∧ cluster ≤ file.clusterEnd) =
      some i := by
    refine List.findIdx?_eq_some_iff_getElem.mpr ⟨i_lt, decide_eq_true inside, ?_⟩
    intro j before at_j
    exact before.ne (laid.index_eq (before.trans i_lt) i_lt (of_decide_eq_true at_j) inside)
  rw [infoIndexOf, if_neg (by omega), found, Option.getD_some]

theorem fatSector_entry :
    (fatSector info (cluster / 256)).getD (cluster % 256) 0 =
      if cluster = info[i].clusterEnd then fatEndOfChain else cluster + 1 := by
  have in_sector : cluster % 256 < 256 := Nat.mod_lt _ (by decide)
  have cluster_eq : cluster / 256 * 256 + cluster % 256 = cluster := Nat.div_add_mod' ..
  have small := laid.inside i_lt
  have used := laid.end_le_last i_lt
  have marked : (∃ file ∈ info, file.clusterEnd = cluster) ↔ cluster = info[i].clusterEnd := by
    constructor
    · rintro ⟨file, member, rfl⟩
      obtain ⟨j, j_lt, rfl⟩ := List.mem_iff_getElem.mp member
      have same := laid.index_eq j_lt i_lt ⟨(laid.inside j_lt).2.1, le_rfl⟩ inside
      simp [same]
    · exact fun last => ⟨_, List.getElem_mem i_lt, last.symm⟩
  rw [List.getD_eq_getElem?_getD, fatSector]
  rw [getElem?_marks _ _ _ in_sector, cluster_eq]
  · simp only [marked]
    split
    · rfl
    have untouched (data16 : List ℕ) : (if cluster / 256 = 0 then
        (data16.set 0 0xFFF8).set 1 fatEndOfChain else data16)[cluster % 256]? =
          data16[cluster % 256]? := by
      split
      · rw [List.getElem?_set_ne (by omega), List.getElem?_set_ne (by omega)]
      · rfl
    rw [untouched, List.getElem?_map, List.getElem?_range in_sector, Option.map_some,
      Option.getD_some, if_neg (by omega)]
    omega
  · split <;> simpa using in_sector

end

theorem fatOf_disk (copy_lt : copy < 2)
    (inside : info[i].clusterStart ≤ cluster ∧ cluster ≤ info[i].clusterEnd) :
    fatOf (uf2ReadBlock flash flashSize info) copy cluster =
      if cluster = info[i].clusterEnd then fatEndOfChain else cluster + 1 := by
  have small := laid.inside i_lt
  rw [fatOf, uf2ReadBlock_fat (by omega)]
  · have sector_eq : (fsStartFat0Sector + copy * bpbSectorsPerFat + cluster / 256 -
        fsStartFat0Sector) % bpbSectorsPerFat = cluster / 256 := by
      rw [bpbSectorsPerFat_eq]
      omega
    rw [sector_eq]
    exact fatSector_entry laid i_lt inside
  · rw [fsStartFat0Sector, bpbSectorsPerFat_eq, fsStartRootdirSector_eq]
    omega

end

omit laid in
theorem entryOf_disk {i : ℕ} (i_lt : i < info.length) (few : info.length ≤ 63) :
    entryOf (uf2ReadBlock flash flashSize info) i = some (dirEntry info[i]) := by
  rw [entryOf, uf2ReadBlock_root (Nat.le_add_right ..) (Nat.add_lt_add_left (by omega) _),
    Nat.add_sub_cancel_left]
  dsimp only
  rw [rootSector]
  split
  · have first : (i + 1) % 16 = i + 1 := by omega
    rw [first, List.getElem?_cons_succ, List.getElem?_map, List.getElem?_take_of_lt (by omega),
      List.getElem?_eq_getElem i_lt, Option.map_some]
  · have index_eq : 16 * ((i + 1) / 16) - 1 + (i + 1) % 16 = i := by omega
    rw [List.getElem?_map, List.getElem?_take_of_lt (by omega), List.getElem?_drop, index_eq,
      List.getElem?_eq_getElem i_lt, Option.map_some]

theorem data_disk (i_lt : i < info.length)
    (inside : info[i].clusterStart ≤ cluster ∧ cluster ≤ info[i].clusterEnd) :
    uf2ReadBlock flash flashSize info (fsStartClustersSector + (cluster - 2)) =
      fileSector flash flashSize info[i] (cluster - info[i].clusterStart) := by
  have small := laid.inside i_lt
  have offset_eq : cluster - 2 - (info[i].clusterStart - 2) = cluster - info[i].clusterStart := by
    omega
  have relative : fsStartClustersSector + (cluster - 2) - fsStartClustersSector = cluster - 2 :=
    Nat.add_sub_cancel_left ..
  generalize block_eq : fsStartClustersSector + (cluster - 2) = blockNo at *
  rw [fsStartClustersSector_eq] at block_eq
  have after : ¬blockNo < fsStartRootdirSector := by
    rw [fsStartRootdirSector_eq]
    omega
  have behind : ¬blockNo < fsStartClustersSector := by
    rw [fsStartClustersSector_eq]
    omega
  have behind_boot : blockNo ≠ 0 := by omega
  have on_disk : blockNo < 0x10109 := by omega
  rw [uf2ReadBlock, if_neg behind_boot, if_neg after, if_neg behind, if_pos on_disk, relative]
  dsimp only
  rw [Nat.add_sub_cancel' (inside.1.trans' small.1), infoIndexOf_eq laid i_lt inside,
    List.getElem?_eq_getElem i_lt]
  dsimp only
  rw [offset_eq]

theorem hostFile_disk (i_lt : i < info.length) (few : info.length ≤ 63) (copy_lt : copy < 2) :
    hostFile (uf2ReadBlock flash flashSize info) copy i =
      (List.range (info[i].clusterEnd + 1 - info[i].clusterStart)).map
        (fileSector flash flashSize info[i]) := by
  have small := laid.inside i_lt
  have count_eq : info[i].clusterStart + (info[i].clusterEnd - info[i].clusterStart) =
      info[i].clusterEnd := by omega
  have chain_eq : chain (fatOf (uf2ReadBlock flash flashSize info) copy) 65536
      info[i].clusterStart =
        List.range' info[i].clusterStart (info[i].clusterEnd - info[i].clusterStart + 1) := by
    refine chain_eq_range' (by omega) (by rw [fatEndOfChain]; omega) fun cluster after before => ?_
    rw [count_eq] at before ⊢
    exact fatOf_disk laid i_lt copy_lt ⟨after, before⟩
  rw [hostFile, entryOf_disk i_lt few]
  dsimp only [dirEntry]
  rw [chain_eq, List.range'_eq_map_range, List.map_map,
    Nat.succ_sub small.2.1]
  refine List.map_congr_left fun offset member => ?_
  have offset_lt := List.mem_range.mp member
  dsimp only [Function.comp]
  rw [data_disk laid i_lt (by omega), Nat.add_sub_cancel_left]

end Laid

theorem divCeil_mul (count : ℕ) : divCeil (count * 512) 512 = count := by
  simp [divCeil]

theorem map_initStartingClusters {α : Type*} (field : FileContent → α)
    (kept : ∀ (file : FileContent) (first last : ℕ),
      field { file with clusterStart := first, clusterEnd := last } = field file)
    (start : ℕ) (files : List FileContent) :
    (initStartingClusters start files).map field = files.map field := by
  induction files generalizing start with
  | nil => rfl
  | cons file files induction => simp [initStartingClusters, kept, induction]

/-- The files of the disk in their order, and the clusters each of them takes. -/
theorem uf2Init_files (texts : List (String × List UInt8)) (flashSize : ℕ) :
    (uf2Init texts flashSize).map (fun file => (file.content, file.size)) =
      texts.map (fun text => (some text.2, text.2.length)) ++
        [(none, flashSize / 256 * 512)] := by
  rw [uf2Init, map_initStartingClusters _ fun _ _ _ => rfl, List.map_append, List.map_map]
  rfl

/-- The disk that a host sees holds every file: its directory entry leads to a chain, in either
copy of the FAT, along whose clusters the file lies, the texts padded with zeros and the firmware
in blocks.  All files together have to fit into the clusters of the disk. -/
theorem hostFile_uf2Init (flash : ℕ → UInt8) (flashSize : ℕ)
    (texts : List (String × List UInt8)) (few : texts.length < 63)
    (nonempty : ∀ text ∈ texts, text.2 ≠ []) (flashed : 256 ≤ flashSize)
    (fits : (texts.map fun text => divCeil text.2.length 512).sum + flashSize / 256 ≤ clusterCount)
    {copy : ℕ} (copy_lt : copy < 2) :
    let disk := uf2ReadBlock flash flashSize (uf2Init texts flashSize)
    (∀ (i : ℕ) (i_lt : i < texts.length), hostFile disk copy i =
      (List.range (divCeil texts[i].2.length 512)).map fun k =>
        let data := (texts[i].2.drop (k * 512)).take 512
        .bytes (data ++ List.replicate (512 - data.length) 0)) ∧
    hostFile disk copy texts.length =
      (List.range (flashSize / 256)).map fun k => .uf2 (currentBlock flash flashSize k) := by
  intro disk
  have files := uf2Init_files texts flashSize
  obtain ⟨laid, -, count⟩ :
      Laid (uf2Init texts flashSize) ∧ _ ∧ ∀ file ∈ uf2Init texts flashSize,
        file.clusterEnd + 1 = file.clusterStart + divCeil file.size 512 := by
    refine initStartingClusters_laid le_rfl ?_ ?_
    · simp only [List.forall_mem_append, List.forall_mem_map, List.forall_mem_singleton]
      exact ⟨fun text member => List.length_pos_iff.mpr (nonempty text member), by omega⟩
    · simp only [List.map_append, List.map_map, List.sum_append, List.map_cons, List.map_nil,
        List.sum_singleton, divCeil_mul]
      exact (Nat.add_le_add_left fits 2).trans_eq (Nat.add_comm ..)
  have length_eq : (uf2Init texts flashSize).length = texts.length + 1 := by
    simpa using congrArg List.length files
  have host_eq {i : ℕ} (i_lt : i < (uf2Init texts flashSize).length) :
      hostFile disk copy i = (List.range (divCeil (uf2Init texts flashSize)[i].size 512)).map
        (fileSector flash flashSize (uf2Init texts flashSize)[i]) := by
    rw [hostFile_disk laid i_lt (by omega) copy_lt, count _ (List.getElem_mem i_lt),
      Nat.add_sub_cancel_left]
  constructor
  · intro i i_lt
    have inside : i < (uf2Init texts flashSize).length := by omega
    have file_eq : (uf2Init texts flashSize)[i].content = some texts[i].2 ∧
        (uf2Init texts flashSize)[i].size = texts[i].2.length := by
      simpa [inside, i_lt, List.getElem?_append] using congrArg (·[i]?) files
    rw [host_eq inside, file_eq.2]
    refine List.map_congr_left fun k _ => ?_
    rw [fileSector, file_eq.1]
  · have inside : texts.length < (uf2Init texts flashSize).length := by omega
    have file_eq : (uf2Init texts flashSize)[texts.length].content = none ∧
        (uf2Init texts flashSize)[texts.length].size = flashSize / 256 * 512 := by
      simpa [inside] using congrArg (·[texts.length]?) files
    rw [host_eq inside, file_eq.2, divCeil_mul]
    refine List.map_congr_left fun k member => ?_
    have k_lt := List.mem_range.mp member
    rw [fileSector, file_eq.1]
    dsimp only
    rw [if_pos (by omega)]

theorem hostFile_uf2Init_two :
    let disk := uf2ReadBlock (fun _ => 0xFF) 512 (uf2Init [("INFO_UF2TXT", [67])] 512)
    hostFile disk 1 1 = (List.range 2).map fun k => .uf2 (currentBlock (fun _ => 0xFF) 512 k) :=
  (hostFile_uf2Init _ 512 [("INFO_UF2TXT", [67])] (by decide) (by simp) (by decide) (by decide)
    (by decide)).2

/-! ## A host writes a firmware -/

def maxBlocks : ℕ := 4 * 1024 * 1024 / 256 + 100

/-- `WriteState`. -/
structure WriteState where
  numBlocks : ℕ
  numWritten : ℕ
  writtenMask : ℕ → ℕ

/-- `_wr_state` before the first write. -/
def wrState : WriteState := ⟨0, 0, fun _ => 0⟩

/-- A call of the board's flash. -/
inductive BoardCall
  | write (addr : ℕ) (data : List UInt8) (len : ℕ)
  | flush
  deriving DecidableEq

def isUf2Block (bl : Uf2Block) : Bool :=
  bl.magicStart0 = 0x0A324655 ∧ bl.magicStart1 = 0x9E5D5157 ∧ bl.magicEnd = 0x0AB16F30 ∧
    bl.flags &&& 0x2000 ≠ 0 ∧ bl.flags &&& 1 = 0

/-- The number of blocks that a block says there are. -/
def updateNumBlocks (state : WriteState) (bl : Uf2Block) : WriteState :=
  if state.numBlocks ≠ bl.numBlocks then
    if bl.numBlocks ≥ maxBlocks ∨ state.numBlocks ≠ 0 then { state with numBlocks := 0xffffffff }
    else { state with numBlocks := bl.numBlocks }
  else state

/-- The mark of a block that is written. -/
def markWritten (state : WriteState) (blockNo : ℕ) : WriteState :=
  let pos := blockNo / 8
  if (state.writtenMask pos).testBit (blockNo % 8) then state
  else
    { state with
      writtenMask := Function.update state.writtenMask pos
        (state.writtenMask pos ||| 1 <<< (blockNo % 8))
      numWritten := state.numWritten + 1 }

/-- `uf2_write_block`: the calls of the board and what is returned. -/
def uf2WriteBlock (state : WriteState) (bl : Uf2Block) : WriteState × List BoardCall × ℤ :=
  if !isUf2Block bl then (state, [], -1)
  else if bl.familyID = 0xe9f35d3b then
    let write := BoardCall.write bl.targetAddr bl.data bl.payloadSize
    if bl.numBlocks ≠ 0 then
      let state := updateNumBlocks state bl
      if bl.blockNo < maxBlocks then
        let state := markWritten state bl.blockNo
        (state, if state.numWritten ≥ state.numBlocks then [write, .flush] else [write], 512)
      else (state, [write], 512)
    else (state, [write], 512)
  else (state, [], -1)

/-- The sectors that a host writes. -/
def machine : Machine WriteState Uf2Block (List BoardCall × ℤ) where
  step := uf2WriteBlock

/-- A block for this board. -/
def Accepted (bl : Uf2Block) : Prop :=
  isUf2Block bl = true ∧ bl.familyID = 0xe9f35d3b

instance (bl : Uf2Block) : Decidable (Accepted bl) :=
  inferInstanceAs (Decidable (_ ∧ _))

/-- The numbers of the blocks that are counted. -/
def written (blocks : List Uf2Block) : Finset ℕ :=
  ((blocks.filter fun bl => Accepted bl ∧ bl.numBlocks ≠ 0 ∧ bl.blockNo < maxBlocks).map
    Uf2Block.blockNo).toFinset

/-- The marks and their number. -/
structure Marks (state : WriteState) (numbers : Finset ℕ) : Prop where
  mark : ∀ n, (state.writtenMask (n / 8)).testBit (n % 8) = true ↔ n ∈ numbers
  count : state.numWritten = numbers.card

theorem markWritten_marks (marks : Marks state numbers) (blockNo : ℕ) :
    Marks (markWritten state blockNo) (insert blockNo numbers) := by
  rw [markWritten]
  split
  · rename_i marked
    rwa [Finset.insert_eq_of_mem ((marks.mark blockNo).mp marked)]
  · rename_i fresh
    rw [marks.mark] at fresh
    refine ⟨fun n => ?_, by rw [Finset.card_insert_of_notMem fresh, marks.count]⟩
    rw [Finset.mem_insert, ← marks.mark]
    dsimp only
    by_cases same : n / 8 = blockNo / 8
    · rw [same, Function.update_self, Nat.testBit_or, Nat.testBit_shiftLeft, Bool.or_eq_true,
        Bool.and_eq_true, Nat.testBit_one_eq_true_iff_self_eq_zero, decide_eq_true_iff, or_comm]
      exact or_congr_left (by omega)
    · rw [Function.update_of_ne same]
      exact (or_iff_right fun equal => same (congrArg (· / 8) equal)).symm

@[simp]
theorem markWritten_numBlocks (state : WriteState) (blockNo : ℕ) :
    (markWritten state blockNo).numBlocks = state.numBlocks := by
  rw [markWritten]
  split <;> rfl

theorem updateNumBlocks_marks (marks : Marks state numbers) (bl : Uf2Block) :
    Marks (updateNumBlocks state bl) numbers := by
  rw [updateNumBlocks]
  split_ifs <;> exact ⟨marks.mark, marks.count⟩

theorem written_concat (bl : Uf2Block) :
    written (blocks ++ [bl]) =
      if Accepted bl ∧ bl.numBlocks ≠ 0 ∧ bl.blockNo < maxBlocks then
        insert bl.blockNo (written blocks)
      else written blocks := by
  ext n
  simp only [written]
  split_ifs with counted <;> simp [List.filter_append, counted]

theorem uf2WriteBlock_marks {blocks : List Uf2Block} (marks : Marks state (written blocks))
    (bl : Uf2Block) : Marks (uf2WriteBlock state bl).1 (written (blocks ++ [bl])) := by
  rw [written_concat, uf2WriteBlock]
  by_cases magic : isUf2Block bl = true
  · by_cases family : bl.familyID = 0xe9f35d3b
    · have accepted : Accepted bl := ⟨magic, family⟩
      simp only [magic, family, accepted, true_and]
      split_ifs <;> first
        | exact markWritten_marks (updateNumBlocks_marks marks bl) _
        | exact updateNumBlocks_marks marks bl
        | exact marks
        | simp_all
    · simpa [magic, family, Accepted] using marks
  · simpa [magic, Accepted] using marks

theorem marks_run : Marks (machine.run wrState blocks) (written blocks) := by
  induction blocks using List.reverseRecOn with
  | nil => exact ⟨fun n => by simp [wrState, written], rfl⟩
  | append_singleton blocks bl induction =>
      rw [Machine.run_append]
      exact uf2WriteBlock_marks induction bl

/-- However often and in whatever order blocks are written, and whatever else is, the number of the
blocks written is that of the different block numbers. -/
theorem numWritten_run (blocks : List Uf2Block) :
    (machine.run wrState blocks).numWritten = (written blocks).card :=
  (marks_run blocks).count

/-- The sectors written are blocks of one firmware of `n` blocks, or not for this board. -/
def OfFirmware (n : ℕ) (blocks : List Uf2Block) : Prop :=
  ∀ bl ∈ blocks, Accepted bl → bl.numBlocks = n ∧ bl.blockNo < n

section OneFirmware

variable {n : ℕ} (n_pos : 0 < n) (n_lt : n < maxBlocks)

include n_pos n_lt

variable {bl : Uf2Block}

theorem updateNumBlocks_one {state : WriteState}
    (before : state.numBlocks = 0 ∨ state.numBlocks = n) (of : bl.numBlocks = n) :
    (updateNumBlocks state bl).numBlocks = n := by
  rw [updateNumBlocks, of]
  rcases before with none | one
  · rw [none, if_pos n_pos.ne, if_neg (by simp [n_lt])]
  · rw [if_neg (not_not.mpr one), one]

theorem uf2WriteBlock_one (accepted : Accepted bl) (of : bl.numBlocks = n ∧ bl.blockNo < n)
    (state : WriteState) : let after := markWritten (updateNumBlocks state bl) bl.blockNo
    let write := BoardCall.write bl.targetAddr bl.data bl.payloadSize
    uf2WriteBlock state bl =
      (after, if after.numWritten ≥ after.numBlocks then [write, .flush] else [write], 512) := by
  intro after write
  rw [uf2WriteBlock, if_neg (by simp [accepted.1]), if_pos accepted.2]
  dsimp only
  rw [if_pos (of.1 ▸ n_pos.ne'), if_pos (of.2.trans n_lt)]

theorem numBlocks_run {blocks : List Uf2Block} (valid : OfFirmware n blocks) :
    (machine.run wrState blocks).numBlocks = 0 ∨ (machine.run wrState blocks).numBlocks = n := by
  induction blocks using List.reverseRecOn with
  | nil => exact .inl rfl
  | append_singleton blocks bl induction =>
      have before := induction fun bl member => valid bl (List.mem_append_left _ member)
      rw [Machine.run_append]
      change (uf2WriteBlock _ bl).1.numBlocks = 0 ∨ (uf2WriteBlock _ bl).1.numBlocks = n
      by_cases accepted : Accepted bl
      · have of := valid bl (by simp) accepted
        rw [uf2WriteBlock_one n_pos n_lt accepted of, markWritten_numBlocks]
        exact .inr (updateNumBlocks_one n_pos n_lt before of.1)
      · have refused : (uf2WriteBlock (machine.run wrState blocks) bl).1 =
            machine.run wrState blocks := by
          rw [uf2WriteBlock]
          split_ifs <;> simp_all [Accepted]
        rwa [refused]

/-- A block of the firmware is written to the flash, which is flushed exactly if every block has
been written by then, in whatever order, however often and among whatever other sectors. -/
theorem uf2WriteBlock_firmware {blocks : List Uf2Block} {bl : Uf2Block} (accepted : Accepted bl)
    (valid : OfFirmware n (blocks ++ [bl])) :
    (uf2WriteBlock (machine.run wrState blocks) bl).2 =
      (.write bl.targetAddr bl.data bl.payloadSize ::
        if ∀ k < n, ∃ sent ∈ blocks ++ [bl], Accepted sent ∧ sent.blockNo = k then [.flush] else [],
      512) := by
  have of := valid bl (by simp) accepted
  have before := numBlocks_run n_pos n_lt fun bl member => valid bl (List.mem_append_left _ member)
  have marks := uf2WriteBlock_marks (marks_run blocks) bl
  have mem_written (k : ℕ) : k ∈ written (blocks ++ [bl]) ↔
      ∃ sent ∈ blocks ++ [bl], Accepted sent ∧ sent.blockNo = k := by
    simp only [written, List.mem_toFinset, List.mem_map, List.mem_filter, decide_eq_true_iff]
    constructor
    · rintro ⟨sent, ⟨member, accepted, -⟩, equal⟩
      exact ⟨sent, member, accepted, equal⟩
    · rintro ⟨sent, member, accepted, equal⟩
      obtain ⟨count_eq, number_lt⟩ := valid sent member accepted
      exact ⟨sent, ⟨member, accepted, count_eq ▸ n_pos.ne', number_lt.trans n_lt⟩, equal⟩
  have inside : written (blocks ++ [bl]) ⊆ Finset.range n := by
    intro k marked
    obtain ⟨sent, member, accepted, rfl⟩ := (mem_written k).mp marked
    exact Finset.mem_range.mpr (valid sent member accepted).2
  have complete : n ≤ (written (blocks ++ [bl])).card ↔ ∀ k < n, k ∈ written (blocks ++ [bl]) := by
    refine ⟨fun enough k k_lt => ?_, fun every => ?_⟩
    · rw [Finset.eq_of_subset_of_card_le inside (by simpa using enough)]
      exact Finset.mem_range.mpr k_lt
    · simpa using Finset.card_le_card fun k k_lt => every k (Finset.mem_range.mp k_lt)
  simp only [← mem_written, ← complete]
  rw [uf2WriteBlock_one n_pos n_lt accepted of] at marks ⊢
  dsimp only
  rw [marks.count, markWritten_numBlocks, updateNumBlocks_one n_pos n_lt before of.1]
  split <;> rfl

end OneFirmware

theorem currentBlock_accepted (flash : ℕ → UInt8) (flashSize k : ℕ) :
    Accepted (currentBlock flash flashSize k) :=
  ⟨decide_eq_true ⟨rfl, rfl, rfl,
    show (0x2000 : UInt32) &&& 0x2000 ≠ 0 by decide,
    show (0x2000 : UInt32) &&& 1 = 0 by decide⟩, rfl⟩

theorem uf2WriteBlock_firmware_two :
    let block := currentBlock (fun _ => 0xFF) 512
    .flush ∈ (uf2WriteBlock (machine.run wrState [block 1, block 1]) (block 0)).2.1 := by
  intro block
  have accepted (k : ℕ) : Accepted (block k) := currentBlock_accepted ..
  have valid : OfFirmware 2 [block 1, block 1, block 0] := by
    simp only [OfFirmware, List.forall_mem_cons]
    exact ⟨fun _ => ⟨rfl, Nat.one_lt_two⟩, fun _ => ⟨rfl, Nat.one_lt_two⟩,
      fun _ => ⟨rfl, Nat.two_pos⟩, by simp⟩
  rw [@uf2WriteBlock_firmware 2 Nat.two_pos (by decide) _ _ (accepted 0) valid, if_pos]
  · exact List.mem_cons_of_mem _ List.mem_cons_self
  · intro k k_lt
    have which : k = 0 ∨ k = 1 := by omega
    exact ⟨block k, by rcases which with rfl | rfl <;> simp, accepted k, rfl⟩

end BdkFreertos.GhostFat
