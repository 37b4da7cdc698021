import BdkFreertos.HttpClient
import Mathlib.Data.List.TakeWhile

/-!
# An image fetched over HTTP

A response is a status line, header lines and a body that is sent whole or in chunks.  If the body
is sent whole, is shorter than the partition and fits the client's buffer, then a client that reports
success has written the body to the partition, however the response is cut into pieces on its way.
For a chunked body it may report success with an empty partition.
-/

namespace BdkFreertos.HttpOta

/-! ## Responses -/

def crlf : List UInt8 := [13, 10]

def IsLine (line : List UInt8) : Prop :=
  line ≠ [] ∧ 13 ∉ line ∧ 0 ∉ line

instance (line : List UInt8) : Decidable (IsLine line) :=
  inferInstanceAs (Decidable (_ ∧ _))

/-- Lines with the empty line behind them. -/
def headerBytes : List (List UInt8) → List UInt8
  | [] => crlf
  | line :: lines => line ++ crlf ++ headerBytes lines

/-- A part of a body behind a line that says its length. -/
structure Chunk where
  line : List UInt8
  bytes : List UInt8

/-- A body as it is sent. -/
inductive Coding
  | identity (body : List UInt8)
  /-- The body is sent in chunks, followed by a line that says a length of zero and by trailers. -/
  | chunked (chunks : List Chunk) (last : List UInt8) (trailers : List (List UInt8))

namespace Coding

/-- The body. -/
def body : Coding → List UInt8
  | identity body => body
  | chunked chunks _ _ => chunks.flatMap Chunk.bytes

/-- The bytes behind the header. -/
def content : Coding → List UInt8
  | identity body => body
  | chunked chunks last trailers =>
      chunks.flatMap (fun chunk => chunk.line ++ crlf ++ chunk.bytes ++ crlf) ++
        (last ++ crlf ++ headerBytes trailers)

/-- The lines of the chunks say their lengths, and only the last one says zero. -/
def WellFormed : Coding → Prop
  | identity _ => True
  | chunked chunks last trailers =>
      (∀ chunk ∈ chunks, IsLine chunk.line ∧ chunk.bytes ≠ [] ∧
        (scanHex chunk.line).map UInt32.toNat = some chunk.bytes.length) ∧
      IsLine last ∧ scanHex last = some 0 ∧ ∀ trailer ∈ trailers, IsLine trailer

/-- The client takes the header to say how the body is sent, or to say nothing about it. -/
def Described (coding : Coding) (told : ClientData) : Prop :=
  (told.responseContentLen = 0xFFFFFFFF ∧ told.isChunked = false) ∨
    match coding with
    | identity body => told.isChunked = false ∧ told.responseContentLen.toNat = body.length
    | chunked _ _ _ => told.isChunked = true ∧ told.retrieveLen = 0

end Coding

/-- A response. -/
structure Response where
  statusLine : List UInt8
  headers : List (List UInt8)
  coding : Coding

def Response.bytes (response : Response) : List UInt8 :=
  response.statusLine ++ crlf ++ (headerBytes response.headers ++ response.coding.content)

/-- What the client takes the header lines to say. -/
def readHeaders (data : ClientData) (lines : List (List UInt8)) : ClientData :=
  lines.foldl (fun data line =>
    match scanHeader line with
    | some (key, value) => readHeader data key value
    | none => data) data

/-- The record as both callers set it up: it is cleared but for the buffer, the buffer's length and
the length of the content. -/
def freshData (responseBuf : Option (List UInt8)) (responseBufLen responseContentLen : UInt32) :
    ClientData where
  isMore := false
  isChunked := false
  retrieveLen := 0
  responseContentLen := responseContentLen
  responseBufLen := responseBufLen
  responseBuf := responseBuf

def ClientData.parsing (data : ClientData) : ClientData :=
  { data with isMore := true, isChunked := false, responseContentLen := 0xFFFFFFFF }

/-- The client before a request, on a connection on which a response will come. -/
def freshClient (response : Response) (script : List NetEvent) (flash : Flash)
    (data : ClientData) : Client where
  socket := ⟨response.bytes, script⟩
  http := bkHttp flash
  data := data
  responseCode := 0
  fault := false

/-- A response with code 200 whose header says how the body is sent. -/
structure Response.WellFormed (response : Response) (data : ClientData) : Prop where
  status : IsLine response.statusLine
  ok : scanStatus response.statusLine = some 200
  lines : ∀ line ∈ response.headers, IsLine line
  coded : response.coding.WellFormed
  described : response.coding.Described (readHeaders data.parsing response.headers)

/-! ## Lines in the buffer -/

section Lines

variable {data : Memory UInt8} {bound len place : ℕ} {line rest stream : List UInt8}

theorem findCrlf_line (found : findCrlf data bound = some place) (short : bound ≤ len - 1)
    (split : data.load 0 len ++ stream = line ++ crlf ++ rest) (plain : 13 ∉ line) :
    place = line.length ∧ place + 2 ≤ len := by
  obtain ⟨ending, member, first⟩ := List.find?_range_eq_some.mp found
  have place_lt : place < bound := List.mem_range.mp member
  obtain ⟨return_eq, feed_eq⟩ := of_decide_eq_true ending
  have text : ∀ index < len, (line ++ crlf ++ rest)[index]? = some (data index) := by
    intro index inside
    rw [← split, List.getElem?_append_left (by rw [Memory.length_load]; exact inside),
      Memory.getElem?_load, if_pos inside, Nat.zero_add]
  refine ⟨Nat.le_antisymm ?_ ?_, by omega⟩
  · -- otherwise the end of the line would have been found before
    by_contra beyond
    have at_return := text line.length (by omega)
    have at_feed := text (line.length + 1) (by omega)
    rw [List.append_assoc, List.getElem?_append_right (Nat.le_refl _), Nat.sub_self] at at_return
    rw [List.append_assoc, List.getElem?_append_right (Nat.le_add_right _ _),
      Nat.add_sub_cancel_left] at at_feed
    have missed := first line.length (by omega)
    rw [← Option.some.inj at_return, ← Option.some.inj at_feed] at missed
    exact absurd missed (by decide)
  · -- a line has no carriage return
    by_contra before
    have at_place := text place (by omega)
    rw [List.append_assoc, List.getElem?_append_left (by omega), return_eq] at at_place
    exact plain (List.mem_of_getElem? at_place)

theorem load_line (split : data.load 0 len ++ stream = line ++ crlf ++ rest)
    (inside : line.length + 2 ≤ len) :
    data.load 0 line.length = line ∧
      data.load (line.length + 2) (len - (line.length + 2)) ++ stream = rest := by
  have parts : data.load 0 len = data.load 0 line.length ++ data.load line.length 2 ++
      data.load (line.length + 2) (len - (line.length + 2)) := by
    have whole : len = line.length + 2 + (len - (line.length + 2)) := by omega
    conv_lhs => rw [whole]
    rw [Memory.load_add, Memory.load_add, Nat.zero_add, Nat.zero_add]
  rw [parts, List.append_assoc] at split
  obtain ⟨front, back⟩ := List.append_inj split (by
    rw [List.length_append, List.length_append, Memory.length_load, Memory.length_load]
    rfl)
  exact ⟨(List.append_inj front (Memory.length_load _ _ _)).1, back⟩

theorem findCrlf_of_strstrCrlf (found : strstrCrlf data len = some place) :
    findCrlf data (len - 1) = some place := by
  rw [strstrCrlf] at found
  split at found
  · rename_i first search
    split at found
    · cases found
    · rw [search, found]
  · cases found

theorem load_dropText (data : Memory UInt8) (len count : ℕ) :
    (dropText data len count).load 0 (len - count) = data.load count (len - count) := by
  rw [dropText, Memory.load_store_take _ _ (by rw [Memory.length_load]; exact Nat.le_succ _),
    Memory.take_load _ (Nat.le_succ _)]

theorem load_dropText_line (data : Memory UInt8) (len crlfPos : ℕ) :
    (dropText (data.store crlfPos [0]) len (crlfPos + 2)).load 0 (len - (crlfPos + 2)) =
      data.load (crlfPos + 2) (len - (crlfPos + 2)) := by
  rw [load_dropText]
  exact Memory.load_store_of_disjoint _ (Or.inr (Nat.le_succ (crlfPos + 1)))

theorem load_received (data : Memory UInt8) (len : ℕ) (got : List UInt8) :
    (data.store len got).load 0 (len + got.length) = data.load 0 len ++ got := by
  rw [Memory.load_add, Nat.zero_add, Memory.load_store_self,
    Memory.load_store_above _ _ (Nat.le_of_eq (Nat.zero_add len))]

end Lines

/-! ## The buffer of the response -/

/-- The length of the array `response_buf`. -/
def ClientData.room (data : ClientData) : ℕ := (data.responseBuf.map List.length).getD 0

theorem storeResponse_eq {client : Client} {place : ℕ} {bytes : List UInt8}
    (inside : place + bytes.length ≤ client.data.room) (positive : 0 < client.data.room) :
    ∃ buf : List UInt8, buf.length = client.data.room ∧ client.storeResponse place bytes =
      { client with data := { client.data with responseBuf := some buf } } := by
  rw [Client.storeResponse]
  rcases array : client.data.responseBuf with _ | buf
  · rw [ClientData.room, array] at positive
    exact absurd positive (Nat.lt_irrefl 0)
  · have room_eq : client.data.room = buf.length := by rw [ClientData.room, array]; rfl
    rw [room_eq] at inside ⊢
    refine ⟨_, ?_, if_pos inside⟩
    simp only [List.length_append, List.length_take, List.length_drop]
    omega

theorem storeResponse_twice {client : Client} {first second : ℕ} {bytes ending : List UInt8}
    (first_inside : first + bytes.length ≤ client.data.room)
    (second_inside : second + ending.length ≤ client.data.room) (positive : 0 < client.data.room) :
    ∃ buf : List UInt8, buf.length = client.data.room ∧
      (client.storeResponse first bytes).storeResponse second ending =
        { client with data := { client.data with responseBuf := some buf } } := by
  obtain ⟨between, between_length, between_eq⟩ := storeResponse_eq first_inside positive
  rw [← between_length] at second_inside positive
  rw [between_eq, ← between_length]
  exact @storeResponse_eq
    { client with data := { client.data with responseBuf := some between } } second ending
    second_inside positive

/-! ## Success -/

/-- The client stores nothing outside its buffer, and it does not report success before the body is
in the partition. -/
def Fulfils (body : List UInt8) (result : Client × Option ℤ) : Prop :=
  result.1.fault = false ∧ ∀ ret, result.2 = some ret → 0 ≤ ret → Stored result.1.http body

variable {client : Client} {fuel : ℕ} {data : Memory UInt8} {flash : Flash}
  {lines : List (List UInt8)} {told : ClientData}

theorem fulfils_of_neg (body : List UInt8) (sound : client.fault = false) {ret : ℤ}
    (failed : ret < 0) : Fulfils body (client, some ret) := by
  refine ⟨sound, ?_⟩
  rintro told ⟨⟩ success
  omega

theorem fulfils_of_none (body : List UInt8) (sound : client.fault = false) :
    Fulfils body (client, none) := by
  refine ⟨sound, ?_⟩
  rintro told ⟨⟩

theorem stored_nil (flash : Flash) : Stored (bkHttp flash) [] where
  held := rfl
  contiguous := trivial
  written := rfl

theorem HandedOver.stored_nil {http : HttpData} (handed : HandedOver http []) :
    Stored http [] := by
  obtain ⟨stored, gathered, all⟩ := handed
  obtain ⟨rfl, -⟩ := List.append_eq_nil_iff.mp all
  exact gathered.kept

theorem zero_ne_errorHttpConn : (0 : ℤ) ≠ errorHttpConn := by decide

theorem errorHttpConn_neg : errorHttpConn < 0 := Int.negSucc_lt_zero 7

/-- A response without a length is not written.  Success is reported only if the buffer is too
small. -/
theorem plainLoop_writes_nothing {fuel : ℕ} {client : Client} {data : Memory UInt8}
    {count len : UInt32} {total : ℕ} (idle : client.http.doData = false)
    (sound : client.fault = false)
    (received : count.toNat + len.toNat + client.socket.stream.length = total)
    (inside : min total (client.data.responseBufLen - 1).toNat < client.data.room)
    (small : client.data.room < 2 ^ 31) (started : count ≤ client.data.responseBufLen - 1)
    (short : len.toNat ≤ 255) :
    let result := plainLoop fuel client data count len
    result.1.fault = false ∧ result.1.http = client.http ∧
      (total < (client.data.responseBufLen - 1).toNat → ∀ ret, result.2 = some ret → ret < 0) := by
  induction fuel generalizing client data count len with
  | zero =>
      refine ⟨sound, rfl, ?_⟩
      rintro - ret ⟨⟩
  | succ fuel induction =>
      have sum : (count + len).toNat = count.toNat + len.toNat := by
        have started := UInt32.le_iff_toNat_le.mp started
        have bound := (client.data.responseBufLen - 1).toNat_lt
        exact toNat_add_of_lt (by omega)
      have positive : 0 < client.data.room := Nat.lt_of_le_of_lt (Nat.zero_le _) inside
      rw [plainLoop]
      by_cases room : count + len < client.data.responseBufLen - 1
      · rw [if_pos room]
        have room_lt := UInt32.lt_iff_toNat_lt.mp room
        obtain ⟨buf, buf_length, stores_eq⟩ := @storeResponse_twice client count.toNat
          (count + len).toNat (data.load 0 len.toNat) [0]
          (by rw [Memory.length_load]; omega) (by rw [List.length_singleton]; omega) positive
        dsimp only
        rw [stores_eq]
        dsimp only
        generalize maxLen_eq : min (UInt32.ofNat (httpclientChunkSize - 1))
          (client.data.responseBufLen - 1 - (count + len)) = maxLen
        have chunk : (UInt32.ofNat (httpclientChunkSize - 1)).toNat = 255 := rfl
        have positive : maxLen.toNat ≠ 0 := by
          rw [← maxLen_eq, UInt32.toNat_min, chunk,
            UInt32.toNat_sub_of_le _ _ (UInt32.le_iff_toNat_le.mpr (Nat.le_of_lt room_lt))]
          omega
        have maxLen_le : maxLen.toNat ≤ 255 := by
          rw [← maxLen_eq, UInt32.toNat_min, chunk]
          exact Nat.min_le_left _ _
        obtain ⟨http_eq, result⟩ := httpclientRecv_plain client.socket maxLen.toNat idle
        generalize httpclientRecv client.socket client.http maxLen.toNat = read at *
        rcases result with failed | ⟨ret_eq, got_le, got_ne, split⟩
        · rw [if_pos failed]
          refine ⟨sound, http_eq, ?_⟩
          rintro - ret ⟨⟩
          rw [failed]
          exact errorHttpConn_neg
        · rw [ret_eq, if_neg zero_ne_errorHttpConn, if_neg (got_ne positive)]
          have got_eq : (UInt32.ofNat read.got.length).toNat = read.got.length :=
            toNat_ofNat_of_le got_le
          obtain ⟨later_sound, later_eq, never⟩ := @induction
            (Client.after { client with data := { client.data with responseBuf := some buf } } read)
            (data.store 0 read.got) (count + len) (UInt32.ofNat read.got.length)
            ((congrArg HttpData.doData http_eq).trans idle) sound
            (by
              rw [split, List.length_append] at received
              rw [sum, got_eq]
              simp only [Client.after]
              omega)
            (Nat.lt_of_lt_of_eq inside buf_length.symm)
            (Nat.lt_of_le_of_lt (Nat.le_of_eq buf_length) small) (UInt32.le_of_lt room) (by omega)
          exact ⟨later_sound, later_eq.trans http_eq, never⟩
      · rw [if_neg room]
        have full : (client.data.responseBufLen - 1).toNat ≤ count.toNat + len.toNat := by
          rw [← sum]
          exact Nat.not_lt.mp fun less => room (UInt32.lt_iff_toNat_lt.mpr less)
        have missing : (client.data.responseBufLen - 1 - count).toNat =
            (client.data.responseBufLen - 1).toNat - count.toNat :=
          UInt32.toNat_sub_of_le _ _ started
        have started := UInt32.le_iff_toNat_le.mp started
        obtain ⟨buf, -, stores_eq⟩ := @storeResponse_twice client count.toNat
          (client.data.responseBufLen - 1).toNat
          (data.load 0 (client.data.responseBufLen - 1 - count).toNat) [0]
          (by rw [Memory.length_load, missing]; omega) (by rw [List.length_singleton]; omega) positive
        dsimp only
        rw [stores_eq]
        refine ⟨sound, rfl, ?_⟩
        intro enough
        omega

/-! ## A body that is sent whole -/

/-- The transfer of a body that is sent whole: what has been taken from the stream has been handed
over, and the counters agree with what is left. -/
structure Transferring (body : List UInt8) (client : Client) (count len readLen : UInt32) :
    Prop where
  sound : client.fault = false
  room : body.length < client.data.room
  whole : client.data.isChunked = false
  transfers : client.http.doData = true
  handed : ∃ given, HandedOver client.http given ∧ given ++ client.socket.stream = body
  left : readLen.toNat = len.toNat + client.socket.stream.length
  total : count.toNat + readLen.toNat = body.length

namespace Transferring

variable {body : List UInt8} {client : Client} {count len readLen : UInt32}

section

variable (state : Transferring body client count len readLen)
include state

theorem len_le : len ≤ readLen := by
  have left := state.left
  rw [UInt32.le_iff_toNat_le]
  omega

theorem templen : min len readLen = len := by
  have within := UInt32.le_iff_toNat_le.mp state.len_le
  rw [← UInt32.toNat_inj, UInt32.toNat_min]
  exact Nat.min_eq_left within

theorem rest : (readLen - len).toNat = client.socket.stream.length := by
  have left := state.left
  rw [UInt32.toNat_sub_of_le _ _ state.len_le]
  omega

theorem counted (fits : body.length < 0xAE000) : (count + len).toNat = count.toNat + len.toNat := by
  have left := state.left
  have total := state.total
  exact toNat_add_of_lt (by omega)

theorem recv (fits : body.length < 0xAE000) (maxLen : ℕ) {buf : List UInt8}
    (buf_length : buf.length = client.data.room) (retrieveLen : ℤ) :
    let read := httpclientRecv client.socket client.http maxLen
    let data := { client.data with responseBuf := some buf, retrieveLen := retrieveLen }
    read.ret = errorHttpConn ∨
      Transferring body (Client.after { client with data := data } read)
        (count + len) (UInt32.ofNat read.got.length) (readLen - len) := by
  intro read data
  obtain ⟨given, handed, all⟩ := state.handed
  refine (httpclientRecv_transfer maxLen handed state.transfers (by rw [all]; exact fits)).imp_right
    ?_
  rintro ⟨split, handed', transfers'⟩
  have received : read.got.length + read.socket.stream.length = client.socket.stream.length := by
    rw [split, List.length_append]
  have left := state.left
  have total := state.total
  have rest := state.rest
  have counted := state.counted fits
  refine ⟨state.sound, Nat.lt_of_lt_of_eq state.room buf_length.symm, state.whole, transfers',
    ⟨given ++ read.got, handed', ?_⟩, ?_, ?_⟩
  · rw [List.append_assoc]
    exact (congrArg (given ++ ·) split.symm).trans all
  · rw [rest, ← received, @toNat_ofNat_of_le _ (readLen - len) (by rw [rest]; omega)]
    rfl
  · omega

end

end Transferring

/-- How the loop over the bytes of a body should end. -/
def CopyResult.Delivers (body : List UInt8) : CopyResult → Prop
  | returns client ret => Fulfils body (client, ret)
  | finished client _ _ =>
      client.fault = false ∧ client.data.isChunked = false ∧ HandedOver client.http body

theorem copyLoop_delivers {body : List UInt8} {fuel : ℕ} {client : Client}
    {count len readLen : UInt32} (state : Transferring body client count len readLen)
    (fits : body.length < 0xAE000)
    (room : body = [] ∨ body.length < (client.data.responseBufLen - 1).toNat) :
    (copyLoop fuel client count len readLen).Delivers body := by
  induction fuel generalizing client count len readLen with
  | zero => exact fulfils_of_none body state.sound
  | succ fuel induction =>
      have rest := state.rest
      have left := state.left
      have total := state.total
      have counted := state.counted fits
      have inside := state.room
      have positive : 0 < client.data.room := Nat.zero_lt_of_lt inside
      obtain ⟨given, handed, all⟩ := state.handed
      rw [copyLoop]
      simp only [state.templen, if_neg (UInt32.not_lt.mpr state.len_le), gt_iff_lt]
      split
      · obtain ⟨buf, buf_length, store_eq⟩ := @storeResponse_eq client (count + len).toNat [0]
          (by rw [List.length_singleton]; omega) positive
        simp only [store_eq]
        split
        · -- the next bytes of the body
          split
          · rename_i failed
            rw [failed]
            refine fulfils_of_neg body ?_ errorHttpConn_neg
            exact state.sound
          · rename_i succeeded
            exact induction ((state.recv fits _ buf_length _).resolve_left succeeded) room
        · -- nothing is left
          rename_i done
          refine ⟨state.sound, state.whole, ?_⟩
          rw [not_not.mp done] at rest
          rw [List.length_eq_zero_iff.mp rest.symm, List.append_nil] at all
          exact all ▸ handed
      · -- the buffer is full, which an empty body does not mind
        rename_i full
        rw [UInt32.lt_iff_toNat_lt, counted] at full
        rcases room with rfl | room
        · rw [List.length_nil] at total
          obtain ⟨buf, buf_length, store_eq⟩ := @storeResponse_eq client
            (client.data.responseBufLen - 1).toNat [0] (by rw [List.length_singleton]; omega) positive
          simp only [store_eq]
          refine ⟨state.sound, ?_⟩
          intro ret _ _
          rw [(List.append_eq_nil_iff.mp all).1] at handed
          exact handed.stored_nil
        · omega

theorem retrieveLoop_whole {body : List UInt8} {len : ℕ} (sound : client.fault = false)
    (inside : body.length < client.data.room) (whole : client.data.isChunked = false)
    (unwritten : client.http.writes = []) (all : data.load 0 len ++ client.socket.stream = body)
    (told : (UInt32.ofInt client.data.retrieveLen).toNat = body.length)
    (fits : body.length < 0xAE000)
    (room : body = [] ∨ body.length < (client.data.responseBufLen - 1).toNat) :
    Fulfils body (retrieveLoop fuel client data 0 len) := by
  cases fuel with
  | zero => exact fulfils_of_none body sound
  | succ fuel =>
      have parts : len + client.socket.stream.length = body.length := by
        rw [← all, List.length_append, Memory.length_load]
      have len_eq : (UInt32.ofNat len).toNat = len :=
        @toNat_ofNat_of_le _ (UInt32.ofInt client.data.retrieveLen) (by omega)
      have first : HandedOver (httpWrToFlash (httpFlashInit client.http) (data.load 0 len))
          (data.load 0 len) :=
        (HandedOver.init unwritten).page (by
          rw [List.nil_append, Memory.length_load]
          omega)
      rw [retrieveLoop, blockStart, if_neg (by rw [whole]; exact fun chunked => by cases chunked.1)]
      dsimp only
      have begun := first.transfer
        (UInt32.ofInt client.data.retrieveLen - UInt32.ofNat len) true
      generalize started :
        ({ httpWrToFlash (httpFlashInit client.http) (data.load 0 len) with
           httpTotal := UInt32.ofInt client.data.retrieveLen - UInt32.ofNat len
           doData := true } : HttpData) = http at *
      have delivered := @copyLoop_delivers body fuel { client with http := http } 0
        (UInt32.ofNat len) (UInt32.ofInt client.data.retrieveLen)
        { sound := sound
          room := inside
          whole := whole
          transfers := by rw [← started]
          handed := ⟨data.load 0 len, begun, all⟩
          left := by
            rw [told, len_eq]
            exact parts.symm
          total := (Nat.zero_add _).trans told } fits room
      revert delivered
      cases copyLoop fuel _ 0 (UInt32.ofNat len) (UInt32.ofInt client.data.retrieveLen) with
      | returns client ret => exact fun fulfilled => fulfilled
      | finished client count len =>
          rintro ⟨sound, whole, handed⟩
          dsimp only
          rw [if_neg (by rw [whole]; exact Bool.false_ne_true)]
          refine ⟨sound, ?_⟩
          intro ret _ _
          exact (handed.transfer client.http.httpTotal false).flush fits

/-! ## An empty body -/

/-- How the search for the line of a chunk should end. -/
def ChunkHeader.Finds (line : List UInt8) (http : HttpData) : ChunkHeader → Prop
  | returns client ret => client.fault = false ∧ ∀ told, ret = some told → told < 0
  | found client data _ crlfPos =>
      client.fault = false ∧ client.http = http ∧ data.load 0 crlfPos = line

theorem chunkHeader_finds {fuel : ℕ} {client : Client} {data : Memory UInt8} {len : ℕ}
    {line rest : List UInt8} (sound : client.fault = false) (idle : client.http.doData = false)
    (plain : 13 ∉ line) (all : data.load 0 len ++ client.socket.stream = line ++ crlf ++ rest) :
    (chunkHeader fuel client data len).Finds line client.http := by
  induction fuel generalizing client data len with
  | zero =>
      refine ⟨sound, ?_⟩
      rintro told ⟨⟩
  | succ fuel induction =>
      rw [chunkHeader]
      have kept : (data.store len [0]).load 0 len = data.load 0 len :=
        Memory.load_store_above _ _ (Nat.le_of_eq (Nat.zero_add len))
      rw [← kept] at all
      dsimp only
      split
      · rename_i crlfPos found
        obtain ⟨rfl, inside⟩ := findCrlf_line found (by omega) all plain
        exact ⟨sound, rfl, (load_line all inside).1⟩
      · split
        · obtain ⟨http_eq, result⟩ :=
            httpclientRecv_plain client.socket (httpclientChunkSize - len - 1) idle
          generalize httpclientRecv client.socket client.http (httpclientChunkSize - len - 1) =
            read at *
          rcases result with failed | ⟨ret_eq, -, -, received⟩
          · rw [if_pos failed, failed]
            refine ⟨sound, ?_⟩
            rintro told ⟨⟩
            exact errorHttpConn_neg
          · rw [ret_eq, if_neg zero_ne_errorHttpConn]
            have later := @induction (client.after read) ((data.store len [0]).store len read.got)
              (len + read.got.length) sound ((congrArg HttpData.doData http_eq).trans idle) (by
                rw [load_received, List.append_assoc, ← all, received]
                rfl)
            rw [← http_eq]
            exact later
        · refine ⟨sound, ?_⟩
          rintro told ⟨⟩
          exact Int.negSucc_lt_zero 3

/-- A chunked response without chunks is received without writing. -/
theorem retrieveLoop_empty {len : ℕ} {line rest : List UInt8} (sound : client.fault = false)
    (chunked : client.data.isChunked = true) (no_block : client.data.retrieveLen = 0)
    (http_eq : client.http = bkHttp flash) (is_line : IsLine line) (zero : scanHex line = some 0)
    (all : data.load 0 len ++ client.socket.stream = line ++ crlf ++ rest) :
    Fulfils [] (retrieveLoop fuel client data 0 len) := by
  cases fuel with
  | zero => exact fulfils_of_none [] sound
  | succ fuel =>
      have idle : client.http.doData = false := by rw [http_eq]; rfl
      rw [retrieveLoop, blockStart, if_pos ⟨chunked, Int.le_of_eq no_block⟩]
      have found := @chunkHeader_finds fuel client data len line rest sound idle is_line.2.1 all
      revert found
      cases chunkHeader fuel client data len with
      | returns client ret =>
          rintro ⟨sound, failed⟩
          refine ⟨sound, ?_⟩
          intro told returned success
          exact absurd (failed told returned) (Int.not_lt.mpr success)
      | found client data len crlfPos =>
          rintro ⟨sound, same, line_eq⟩
          have text : (data.load 0 crlfPos).takeWhile (fun byte => byte ≠ 0) = line := by
            rw [line_eq, List.takeWhile_eq_self_iff]
            intro byte member
            refine decide_eq_true ?_
            rintro rfl
            exact is_line.2.2 member
          simp only [text, zero, if_true]
          refine ⟨sound, ?_⟩
          intro ret _ _
          simp only [same, http_eq]
          exact stored_nil flash

/-! ## Whole responses -/

/-- The body is empty and the client takes it to be sent in chunks; or the body is empty or sent whole
and shorter than the partition and than the length given for the buffer, of which zero stands for the
largest, and the array is longer than the part of the content that it has to take.  An array has
fewer than 2^31 bytes. -/
def Coding.Fits (coding : Coding) (told : ClientData) : Prop :=
  coding.body = [] ∧ told.isChunked = true ∨
    (coding.body = [] ∨ (∃ body, coding = .identity body) ∧
        coding.body.length < Flash.otaPartition.partitionLength.toNat ∧
        coding.body.length < (told.responseBufLen - 1).toNat) ∧
      min coding.content.length (told.responseBufLen - 1).toNat < told.room ∧ told.room < 2 ^ 31

/-- The response fits the partition and the buffer; where the client does not ask for it, the body is
empty. -/
def Response.Fits (response : Response) (data : ClientData) : Prop :=
  if data.responseBuf.isSome ∨ data.responseBufLen ≠ 0 then
    response.coding.Fits (readHeaders data.parsing response.headers)
  else response.coding.body = []

theorem ofInt_toInt (word : UInt32) : UInt32.ofInt word.toBitVec.toInt = word := by
  have small : (word.toNat : ℤ) % 2 ^ 32 = word.toNat :=
    Int.emod_eq_of_lt (Int.natCast_nonneg _) (Int.ofNat_lt.mpr word.toNat_lt)
  rw [UInt32.ofInt, BitVec.toInt_eq_toNat_bmod, UInt32.toNat_toBitVec]
  have wrapped : (word.toNat : ℤ).bmod (2 ^ 32) % 2 ^ 32 = word.toNat :=
    Int.bmod_emod.trans small
  rw [wrapped, Int.toNat_natCast, UInt32.ofNat_toNat]

/-- Either the record has taken over a length from the header, or the body is chunked. -/
def ClientData.Consistent (data : ClientData) : Prop :=
  data.isChunked = true ∨ data.responseContentLen = 0xFFFFFFFF ∨
    data.retrieveLen = data.responseContentLen.toBitVec.toInt

theorem consistent_readHeader {data : ClientData} (consistent : data.Consistent)
    (key value : List UInt8) : (readHeader data key value).Consistent := by
  rw [readHeader]
  split
  · exact Or.inr (Or.inr rfl)
  · split
    · exact Or.inl rfl
    · exact consistent

theorem consistent_readHeaders {data : ClientData} (consistent : data.Consistent)
    (lines : List (List UInt8)) : (readHeaders data lines).Consistent := by
  induction lines generalizing data with
  | nil => exact consistent
  | cons line lines induction =>
      rw [readHeaders, List.foldl_cons]
      cases scanHeader line with
      | none => exact induction consistent
      | some field => exact induction (consistent_readHeader consistent field.1 field.2)

section Content

variable {fuel : ℕ} {client : Client} {data : Memory UInt8} {len : ℕ} {flash : Flash}

variable {coding : Coding}

theorem plainLoop_fulfils (sound : client.fault = false) (short : len ≤ 255)
    (fits : coding.body = [] ∨ (∃ body, coding = .identity body) ∧
      coding.body.length < (client.data.responseBufLen - 1).toNat)
    (inside : min coding.content.length (client.data.responseBufLen - 1).toNat < client.data.room)
    (small : client.data.room < 2 ^ 31) (http_eq : client.http = bkHttp flash)
    (all : data.load 0 len ++ client.socket.stream = coding.content) :
    Fulfils coding.body (plainLoop fuel client data 0 (UInt32.ofNat len)) := by
  have len_eq : (UInt32.ofNat len).toNat = len :=
    UInt32.toNat_ofNat_of_lt' (Nat.lt_of_le_of_lt short (by decide))
  have received : (0 : UInt32).toNat + (UInt32.ofNat len).toNat + client.socket.stream.length =
      coding.content.length := by
    rw [← all, List.length_append, Memory.length_load, len_eq, UInt32.toNat_zero, Nat.zero_add]
  obtain ⟨safe, same, never⟩ := @plainLoop_writes_nothing fuel client data 0 (UInt32.ofNat len) _
    (by rw [http_eq]; rfl) sound received inside small UInt32.zero_le (len_eq.symm ▸ short)
  refine ⟨safe, ?_⟩
  intro ret returned success
  rcases fits with empty | ⟨⟨body, rfl⟩, room⟩
  · rw [same, empty, http_eq]
    exact stored_nil flash
  · -- the buffer is large enough, so there is no success
    exact absurd (never room ret returned) (Int.not_lt.mpr success)

theorem ofInt_retrieveLen {record : ClientData} (consistent : record.Consistent)
    (whole : record.isChunked = false)
    (known : ¬(record.responseContentLen = 0xFFFFFFFF ∧ record.isChunked = false)) :
    UInt32.ofInt record.retrieveLen = record.responseContentLen := by
  rcases consistent with chunked | absent | taken
  · rw [whole] at chunked
    cases chunked
  · exact (known ⟨absent, whole⟩).elim
  · rw [taken, ofInt_toInt]

theorem content_of_empty {chunks : List Chunk} {last : List UInt8} {trailers : List (List UInt8)}
    (coded : (Coding.chunked chunks last trailers).WellFormed)
    (empty : chunks.flatMap Chunk.bytes = []) :
    (Coding.chunked chunks last trailers).content = last ++ crlf ++ headerBytes trailers := by
  obtain rfl : chunks = [] := by
    rw [List.eq_nil_iff_forall_not_mem]
    intro chunk member
    exact (coded.1 chunk member).2.1 (List.flatMap_eq_nil_iff.mp empty chunk member)
  rfl

/-- The bytes behind the header. -/
theorem httpclientRetrieveContent_fulfils (sound : client.fault = false) (short : len ≤ 255)
    (coded : coding.WellFormed) (described : coding.Described client.data)
    (consistent : client.data.Consistent) (fits : coding.Fits client.data)
    (http_eq : client.http = bkHttp flash)
    (all : data.load 0 len ++ client.socket.stream = coding.content) :
    Fulfils coding.body (httpclientRetrieveContent fuel client data len) := by
  rw [httpclientRetrieveContent]
  split
  · rename_i plain
    obtain ⟨sent, inside, small⟩ := fits.resolve_left fun empty => by
      rw [show client.data.isChunked = false from plain.2] at empty
      cases empty.2
    refine plainLoop_fulfils ?_ short (sent.imp_right fun whole => ⟨whole.1, whole.2.2⟩) inside small
      http_eq all
    exact sound
  rename_i known
  have described := described.resolve_left known
  cases coding with
  | identity body =>
      obtain ⟨whole, told⟩ := described
      obtain ⟨sent, inside, -⟩ := fits.resolve_left fun empty => by
        rw [whole] at empty
        cases empty.2
      have body_room : body = [] ∨ body.length < (client.data.responseBufLen - 1).toNat :=
        sent.imp_right fun sent => sent.2.2
      have body_inside : body.length < client.data.room := by
        rcases body_room with rfl | room
        · exact Nat.zero_lt_of_lt inside
        · exact Nat.lt_of_le_of_lt (Nat.le_of_eq (Nat.min_eq_left (Nat.le_of_lt room)).symm) inside
      refine retrieveLoop_whole ?_ body_inside whole ?_ all ?_ ?_ body_room
      · exact sound
      · simp only [http_eq]
        rfl
      · simp only [ofInt_retrieveLen consistent whole known]
        exact told
      · rcases sent with empty | ⟨-, shorter, -⟩
        · rw [show body = [] from empty]
          exact Nat.zero_lt_succ _
        · exact shorter
  | chunked chunks last trailers =>
      obtain ⟨chunked, no_block⟩ := described
      have empty : chunks.flatMap Chunk.bytes = [] := by
        rcases fits with empty | ⟨empty | ⟨⟨body, whole⟩, -⟩, -⟩
        · exact empty.1
        · exact empty
        · cases whole
      rw [content_of_empty coded empty] at all
      rw [show (Coding.chunked chunks last trailers).body = [] from empty]
      refine retrieveLoop_empty ?_ chunked no_block http_eq coded.2.1 coded.2.2.1 all
      exact sound

end Content

/-- What the buffer holds and the connection will bring when the client comes to a part of the
response, with what it has been told by then. -/
structure Expecting (flash : Flash) (told : ClientData) (text : List UInt8) (client : Client)
    (data : Memory UInt8) (len : ℕ) : Prop where
  sound : client.fault = false
  short : len ≤ 255
  unwritten : client.http = bkHttp flash
  record : client.data = told
  all : data.load 0 len ++ client.socket.stream = text

theorem Expecting.recv {text : List UInt8} {len : ℕ}
    (expecting : Expecting flash told text client data len) {maxLen : ℕ}
    (within : len + maxLen ≤ 255) : let read := httpclientRecv client.socket client.http maxLen
    read.ret = errorHttpConn ∨
      read.ret = 0 ∧ (maxLen ≠ 0 → read.got ≠ []) ∧
        Expecting flash told text (client.after read)
          ((data.store len read.got).store (len + read.got.length) [0])
          (len + read.got.length) := by
  have idle : client.http.doData = false := by rw [expecting.unwritten]; rfl
  obtain ⟨http_eq, result⟩ := httpclientRecv_plain client.socket maxLen idle
  refine result.imp_right ?_
  rintro ⟨ret_eq, got_le, got_ne, received⟩
  refine ⟨ret_eq, got_ne, expecting.sound, by omega, http_eq.trans expecting.unwritten,
    expecting.record, ?_⟩
  rw [Memory.load_store_above _ _ (Nat.le_of_eq (Nat.zero_add _)), load_received,
    List.append_assoc, ← expecting.all, received]
  rfl

/-- The client finds the line and what stands behind it. -/
theorem Expecting.line {flash : Flash} {told : ClientData} {line rest : List UInt8}
    {client : Client} {data : Memory UInt8} {len crlfPos : ℕ}
    (expecting : Expecting flash told (line ++ crlf ++ rest) client data len)
    (plain : 13 ∉ line) (found : strstrCrlf data len = some crlfPos) :
    crlfPos = line.length ∧ data.load 0 crlfPos = line ∧
      data.load (crlfPos + 2) (len - (crlfPos + 2)) ++ client.socket.stream = rest := by
  obtain ⟨rfl, inside⟩ :=
    findCrlf_line (findCrlf_of_strstrCrlf found) (Nat.le_refl _) expecting.all plain
  exact ⟨rfl, load_line expecting.all inside⟩

theorem headerLoop_fulfils {body content : List UInt8} {len : ℕ}
    (are_lines : ∀ line ∈ lines, IsLine line) (retrieves : ∀ fuel client data len,
      Expecting flash (readHeaders told lines) content client data len →
        Fulfils body (httpclientRetrieveContent fuel client data len))
    (expecting : Expecting flash told (headerBytes lines ++ content) client data len) :
    Fulfils body (headerLoop fuel client data len) := by
  have sound := expecting.sound
  have short := expecting.short
  induction fuel generalizing lines told client data len with
  | zero => exact fulfils_of_none body sound
  | succ fuel induction =>
      rw [headerLoop]
      cases found : strstrCrlf data len with
      | none =>
          dsimp only
          split
          · have chunk : httpclientChunkSize = 256 := rfl
            have within : len + (httpclientChunkSize - len - 1) ≤ 255 := by omega
            rcases expecting.recv within with failed | ⟨ret_eq, -, later⟩
            · rw [failed, if_pos rfl]
              refine fulfils_of_neg body ?_ errorHttpConn_neg
              exact sound
            · rw [ret_eq, if_neg zero_ne_errorHttpConn]
              exact induction are_lines retrieves later later.sound later.short
          · exact fulfils_of_neg body sound (Int.negSucc_lt_zero 3)
      | some crlfPos =>
          dsimp only
          cases lines with
          | nil =>
              -- the empty line behind the header
              obtain ⟨rfl, -, rest_eq⟩ := @Expecting.line flash told [] content client data len
                crlfPos expecting List.not_mem_nil found
              rw [if_pos List.length_nil]
              split
              · exact fulfils_of_neg body sound (Int.negSucc_lt_zero 42)
              · refine retrieves fuel client _ _
                  ⟨sound, by omega, expecting.unwritten, expecting.record, ?_⟩
                rw [load_dropText]
                exact rest_eq
          | cons line lines =>
              have is_line := are_lines line List.mem_cons_self
              obtain ⟨rfl, line_eq, rest_eq⟩ :=
                @Expecting.line flash told line (headerBytes lines ++ content) client data len
                  crlfPos
                  ⟨sound, short, expecting.unwritten, expecting.record,
                    expecting.all.trans (List.append_assoc _ _ _)⟩
                  is_line.2.1 found
              rw [if_neg (fun empty => is_line.1 (List.length_eq_zero_iff.mp empty)), line_eq]
              cases field : scanHeader line with
              | none => exact fulfils_of_neg body sound (Int.negSucc_lt_zero 3)
              | some pair =>
                  obtain ⟨key, value⟩ := pair
                  have next : readHeaders told (line :: lines) =
                      readHeaders (readHeader told key value) lines := by
                    rw [readHeaders, List.foldl_cons, field]
                    rfl
                  rw [next] at retrieves
                  have shorter : len - (line.length + 2) ≤ 255 := by omega
                  refine induction
                    (fun other member => are_lines other (List.mem_cons_of_mem _ member))
                    retrieves ⟨sound, shorter, expecting.unwritten, ?_, ?_⟩ sound shorter
                  · rw [← expecting.record]
                  · rw [load_dropText_line]
                    exact rest_eq

theorem httpclientResponseParse_fulfils {body statusLine content : List UInt8} {len : ℕ}
    (status : IsLine statusLine) (are_lines : ∀ line ∈ lines, IsLine line)
    (retrieves : ∀ fuel client data len,
      Expecting flash
          (readHeaders { told with responseContentLen := 0xFFFFFFFF, isChunked := false } lines)
          content client data len →
        Fulfils body (httpclientRetrieveContent fuel client data len))
    (expecting : Expecting flash told (statusLine ++ crlf ++ (headerBytes lines ++ content)) client
      data len) : Fulfils body (httpclientResponseParse fuel client data len) := by
  rw [httpclientResponseParse]
  dsimp only
  cases found : strstrCrlf data len with
  | none => exact fulfils_of_neg body expecting.sound (Int.negSucc_lt_zero 5)
  | some crlfPos =>
      have short := expecting.short
      obtain ⟨rfl, line_eq, rest_eq⟩ := expecting.line status.2.1 found
      dsimp only
      cases scanStatus (data.load 0 statusLine.length) with
      | none => exact fulfils_of_neg body expecting.sound (Int.negSucc_lt_zero 5)
      | some code =>
          refine headerLoop_fulfils are_lines retrieves
            ⟨expecting.sound, by omega, expecting.unwritten, ?_, ?_⟩
          · rw [← expecting.record]
          · rw [load_dropText_line]
            exact rest_eq

theorem httpclientRecvResponse_fulfils {response : Response} {script : List NetEvent}
    {flash : Flash} {data : ClientData} {fuel : ℕ} (first : data.isMore = false)
    (well_formed : response.WellFormed data)
    (fits : response.coding.Fits (readHeaders data.parsing response.headers)) :
    Fulfils response.coding.body
      (httpclientRecvResponse fuel (freshClient response script flash data)) := by
  have retrieves : ∀ fuel client data' len,
      Expecting flash (readHeaders data.parsing response.headers) response.coding.content client
        data' len →
      Fulfils response.coding.body (httpclientRetrieveContent fuel client data' len) := by
    intro fuel client data' len expecting
    refine httpclientRetrieveContent_fulfils expecting.sound expecting.short well_formed.coded ?_ ?_
      ?_ expecting.unwritten expecting.all
    · rw [expecting.record]
      exact well_formed.described
    · rw [expecting.record]
      exact consistent_readHeaders (Or.inr (Or.inl rfl)) response.headers
    · rw [expecting.record]
      exact fits
  rw [httpclientRecvResponse, if_neg (by rw [freshClient, first]; exact Bool.false_ne_true)]
  have expecting : Expecting flash { data with isMore := true } response.bytes
      { freshClient response script flash data with data := { data with isMore := true } }
      (fun _ => 0) 0 :=
    ⟨rfl, Nat.zero_le _, rfl, rfl, rfl⟩
  have within : 0 + (httpclientChunkSize - 1) ≤ 255 := Nat.le_refl _
  have received := expecting.recv within
  simp only [Nat.zero_add] at received
  dsimp only [freshClient] at received ⊢
  rcases received with failed | ⟨ret_eq, got_ne, later⟩
  · rw [failed, if_pos zero_ne_errorHttpConn.symm]
    refine fulfils_of_neg _ ?_ errorHttpConn_neg
    exact rfl
  · rw [ret_eq, if_neg (not_not.mpr rfl), if_pos (got_ne (Nat.succ_ne_zero 254))]
    exact httpclientResponseParse_fulfils well_formed.status well_formed.lines retrieves later

/-- Fetching a response into the partition: nothing is stored outside the client's buffer, and if the
client reports success, then the partition holds the body from its start on, and each byte of it has
been written once and in order. -/
theorem http_ota_fidelity (response : Response) (script : List NetEvent) (flash : Flash)
    (responseBuf : Option (List UInt8)) (responseBufLen responseContentLen : UInt32) (fuel : ℕ)
    (connected sent : ℤ)
    (well_formed : response.WellFormed (freshData responseBuf responseBufLen responseContentLen))
    (fits : response.Fits (freshData responseBuf responseBufLen responseContentLen)) :
    let client := freshClient response script flash
      (freshData responseBuf responseBufLen responseContentLen)
    (httpclientCommon fuel connected sent client).1.fault = false ∧
      ((httpclientCommon fuel connected sent client).2 = some 0 →
        Stored (httpclientCommon fuel connected sent client).1.http response.coding.body) := by
  intro client
  rw [httpclientCommon]
  split
  · rename_i failed
    exact ⟨rfl, fun success => (failed (Option.some.inj success)).elim⟩
  split
  · rename_i failed
    exact ⟨rfl, fun success => (failed (Option.some.inj success)).elim⟩
  split
  · rename_i asked
    change if client.data.responseBuf.isSome ∨ client.data.responseBufLen ≠ 0 then _ else _ at fits
    rw [if_pos asked] at fits
    obtain ⟨sound, stored⟩ := @httpclientRecvResponse_fulfils response script flash _ fuel rfl
      well_formed fits
    dsimp only
    revert sound stored
    change (httpclientRecvResponse fuel client).1.fault = false → _
    cases httpclientRecvResponse fuel client with
    | mk client ret =>
        intro sound stored
        cases ret with
        | none => exact ⟨sound, fun success => by cases success⟩
        | some ret =>
            dsimp only
            split
            · rename_i failed
              refine ⟨sound, ?_⟩
              intro success
              rw [Option.some.inj success] at failed
              exact absurd failed (Int.lt_irrefl 0)
            · rename_i succeeded
              exact ⟨sound, fun _ => stored ret rfl (Int.not_lt.mp succeeded)⟩
  · rename_i unasked
    change if client.data.responseBuf.isSome ∨ client.data.responseBufLen ≠ 0 then _ else _ at fits
    rw [if_neg unasked] at fits
    refine ⟨rfl, ?_⟩
    intro _
    rw [fits]
    exact stored_nil flash

/-- A response of five bytes. -/
def wholeResponse : Response where
  statusLine := ascii "HTTP/1.1 200 OK"
  headers := [ascii "Content-Length: 5"]
  coding := .identity [1, 2, 3, 4, 5]

/-- `http_content`, as both callers have it. -/
def httpContent : List UInt8 := List.replicate 256 0

/-- It is received in pieces that end within the header and within the body. -/
theorem http_ota_fidelity_pieces :
    let client := freshClient wholeResponse [.bytes 20, .notReady, .bytes 21, .bytes 3, .bytes 255]
      (fun _ => 0) (freshData (some httpContent) 0 256)
    (httpclientCommon 20 0 0 client).2 = some 0 ∧
      (httpclientCommon 20 0 0 client).1.fault = false ∧
      Stored (httpclientCommon 20 0 0 client).1.http [1, 2, 3, 4, 5] := by
  have success : (httpclientCommon 20 0 0 (freshClient wholeResponse
      [.bytes 20, .notReady, .bytes 21, .bytes 3, .bytes 255] (fun _ => 0)
      (freshData (some httpContent) 0 256))).2 = some 0 := by decide +kernel
  have fidelity := http_ota_fidelity wholeResponse
    [.bytes 20, .notReady, .bytes 21, .bytes 3, .bytes 255] (fun _ => 0) (some httpContent) 0 256 20
    0 0
    { status := by decide +kernel
      ok := by decide +kernel
      lines := by decide +kernel
      coded := trivial
      described := Or.inr (by constructor <;> decide +kernel) }
    (Or.inr ⟨Or.inr ⟨⟨_, rfl⟩, by decide +kernel, by decide +kernel⟩, by decide +kernel,
      by decide +kernel⟩)
  exact ⟨success, fidelity.1, fidelity.2 success⟩

/-- A response with one chunk of six bytes, which begins with a line end. -/
def chunkedResponse : Response where
  statusLine := ascii "HTTP/1.1 200 OK"
  headers := [ascii "Transfer-Encoding: chunked"]
  coding := .chunked [⟨ascii "6", [13, 10, 48, 13, 10, 88]⟩] (ascii "0") []

/-- The client takes the line end in the chunk for the one behind it, and the next line of the chunk
for that of the last chunk.  It reports success and has written nothing. -/
theorem http_ota_chunk_lost :
    let client := freshClient chunkedResponse [.bytes 255] (fun _ => 0)
      (freshData (some httpContent) 0 256)
    chunkedResponse.WellFormed (freshData (some httpContent) 0 256) ∧
      chunkedResponse.coding.body.length ≤ Flash.otaPartition.partitionLength.toNat ∧
      (httpclientCommon 20 0 0 client).2 = some 0 ∧
      (httpclientCommon 20 0 0 client).1.fault = false ∧
      ¬Stored (httpclientCommon 20 0 0 client).1.http chunkedResponse.coding.body := by
  refine ⟨?_, by decide +kernel, by decide +kernel, by decide +kernel, ?_⟩
  · exact
      { status := by decide +kernel
        ok := by decide +kernel
        lines := by decide +kernel
        coded := ⟨by decide +kernel, by decide +kernel, by decide +kernel, by decide +kernel⟩
        described := Or.inr (by constructor <;> decide +kernel) }
  · intro stored
    have nothing : (httpclientCommon 20 0 0 (freshClient chunkedResponse [.bytes 255] (fun _ => 0)
        (freshData (some httpContent) 0 256))).1.http.writes = [] := by decide +kernel
    have written := stored.written
    rw [nothing] at written
    cases written

end BdkFreertos.HttpOta
