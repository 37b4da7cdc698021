import BdkFreertos.HttpFlash

/-!
# The HTTP client

`httpclient_common` receives a response and writes its body to the OTA partition.  The bytes of the
body come in three ways: those received together with the header are written first, the rest is
written from inside the socket read, and the last partial buffer is written at the end.  The last
step is missing for a chunked body.
-/

namespace BdkFreertos.HttpOta

/-! ## The socket -/

/-- What `select` and `recv` do in one round of `HAL_TCP_Read`. -/
inductive NetEvent
  /-- `recv` returns so many bytes, as far as they are asked for and there are any. -/
  | bytes (count : ℕ)
  /-- `select` does not report the socket, or `recv` is interrupted. -/
  | notReady
  /-- The peer has closed the connection. -/
  | closed
  /-- `select` or `recv` fails. -/
  | failed

/-- A connection: the bytes of the response that have not been received, and what the network will
do.  After that the time is up. -/
structure Socket where
  stream : List UInt8
  script : List NetEvent

/-- `SUCCESS_RETURN`. -/
def successReturn : ℤ := 0

/-- `ERROR_HTTP`. -/
def errorHttp : ℤ := -4

/-- `ERROR_HTTP_UNRESOLVED_DNS`. -/
def errorHttpUnresolvedDns : ℤ := -6

def errorHttpConn : ℤ := -8

def mqttSubInfoNotFoundError : ℤ := -43

def httpRetrieveMoreData : ℤ := 1

def httpclientChunkSize : ℕ := 256

def tcpLenMax : UInt32 := 1460

/-- What a read leaves behind. -/
structure TcpRead where
  socket : Socket
  http : HttpData
  ret : ℤ
  got : List UInt8

/-- The end of `HAL_TCP_Read`: bytes that have been received are more important than an error. -/
def tcpReturn (stream : List UInt8) (script : List NetEvent) (http : HttpData) (got : List UInt8)
    (errCode : ℤ) : TcpRead where
  socket := ⟨stream, script⟩
  http := http
  ret := if got.length ≠ 0 then got.length else errCode
  got := got

/-- The condition of the loop of `HAL_TCP_Read`. -/
def readsOn (http : HttpData) (len lenRecv : ℕ) (dataOver : Bool) : Bool :=
  (http.doData && decide (lenRecv < http.httpTotal.toNat)) || (decide (lenRecv < len) && !dataOver)

/-- The loop of `HAL_TCP_Read`, with the bytes received so far. -/
def halTcpReadLoop (len : ℕ) :
    List NetEvent → List UInt8 → HttpData → List UInt8 → Bool → TcpRead
  | [], stream, http, got, _ => ⟨⟨stream, []⟩, http, errorHttpConn, got⟩
  | .closed :: script, stream, http, got, _ => tcpReturn stream script http got (-1)
  | .failed :: script, stream, http, got, _ => tcpReturn stream script http got (-2)
  | .notReady :: script, stream, http, got, dataOver =>
      if readsOn http len got.length dataOver then
        halTcpReadLoop len script stream http got dataOver
      else tcpReturn stream script http got 0
  | .bytes count :: script, stream, http, got, dataOver =>
      if stream = [] then
        -- there is nothing to report
        if readsOn http len got.length dataOver then
          halTcpReadLoop len script stream http got dataOver
        else tcpReturn stream script http got 0
      else if len = 0 then tcpReturn stream script http got (-1)
      else
        let ret := min (max count 1) len
        let piece := stream.take ret
        let dataOver := dataOver || decide (piece.length < len)
        let http := if http.doData then httpDataProcess http piece else http
        let got := got ++ piece
        if readsOn http len got.length dataOver then
          halTcpReadLoop len script (stream.drop ret) http got dataOver
        else tcpReturn (stream.drop ret) script http got 0

def halTcpRead (socket : Socket) (http : HttpData) (len : ℕ) : TcpRead :=
  halTcpReadLoop len socket.script socket.stream http [] false

/-- `httpclient_recv`; the bytes received are as many as `*p_read_len` says. -/
def httpclientRecv (socket : Socket) (http : HttpData) (maxLen : ℕ) : TcpRead :=
  let read := halTcpRead socket http maxLen
  if read.ret > 0 then { read with ret := 0 }
  else if read.ret = 0 then { read with got := [] }
  else { read with ret := errorHttpConn, got := [] }

/-! ## Scanning text -/

def ascii (text : String) : List UInt8 :=
  text.toList.map fun letter => UInt8.ofNat letter.toNat

def isSpace (byte : UInt8) : Bool :=
  byte == 32 || (9 ≤ byte && byte ≤ 13)

def isDigit (byte : UInt8) : Bool :=
  48 ≤ byte && byte ≤ 57

/-- The value of a hexadecimal digit. -/
def hexValue (byte : UInt8) : Option ℕ :=
  if 48 ≤ byte ∧ byte ≤ 57 then some (byte.toNat - 48)
  else if 65 ≤ byte ∧ byte ≤ 70 then some (byte.toNat - 55)
  else if 97 ≤ byte ∧ byte ≤ 102 then some (byte.toNat - 87)
  else none

/-- A sign and the text behind it. -/
def scanSign (text : List UInt8) : Bool × List UInt8 :=
  if text.head? = some 45 then (true, text.tail)
  else if text.head? = some 43 then (false, text.tail)
  else (false, text)

/-- The conversion `%d`, with the text behind the number. -/
def scanInt (text : List UInt8) : Option (ℤ × List UInt8) :=
  let (negative, text) := scanSign (text.dropWhile isSpace)
  let digits := text.takeWhile isDigit
  let value : ℕ := digits.foldl (fun value byte => 10 * value + (byte.toNat - 48)) 0
  if digits = [] then none
  else some (if negative then -value else value, text.dropWhile isDigit)

/-- The conversion `%x`. -/
def scanHex (text : List UInt8) : Option UInt32 :=
  let (negative, text) := scanSign (text.dropWhile isSpace)
  let text := if [48, 120].isPrefixOf text || [48, 88].isPrefixOf text then text.drop 2 else text
  let digits := (text.takeWhile fun byte => (hexValue byte).isSome).filterMap hexValue
  let value := UInt32.ofNat (digits.foldl (fun value digit => 16 * value + digit) 0)
  if digits = [] then none else some (if negative then -value else value)

def scanLiteral (literal text : List UInt8) : Option (List UInt8) :=
  if literal.isPrefixOf text then some (text.drop literal.length) else none

/-- `sscanf(line, "HTTP/%*d.%*d %d %*[^\r\n]", ..)`. -/
def scanStatus (line : List UInt8) : Option ℤ := do
  let text ← scanLiteral (ascii "HTTP/") line
  let (_, text) ← scanInt text
  let text ← scanLiteral (ascii ".") text
  let (_, text) ← scanInt text
  let (code, _) ← scanInt text
  some code

/-- `sscanf(line, "%31[^:]: %31[^\r\n]", ..)` with both conversions. -/
def scanHeader (line : List UInt8) : Option (List UInt8 × List UInt8) :=
  let key := (line.takeWhile fun byte => byte ≠ 58).take 31
  let rest := line.drop key.length
  let value := ((rest.tail.dropWhile isSpace).takeWhile fun byte => byte ≠ 13 ∧ byte ≠ 10).take 31
  if key ≠ [] ∧ rest.head? = some 58 ∧ value ≠ [] then some (key, value) else none

def findCrlf (data : Memory UInt8) (bound : ℕ) : Option ℕ :=
  (List.range bound).find? fun place => data place = 13 ∧ data (place + 1) = 10

/-- `os_strstr(data, "\r\n")` in a text of a length. -/
def strstrCrlf (data : Memory UInt8) (len : ℕ) : Option ℕ :=
  match findCrlf data (len - 1) with
  | some place => if 0 ∈ data.load 0 place then none else some place
  | none => none

/-! ## The client -/

/-- The record `httpclient_data_t`, as far as the response is concerned. -/
structure ClientData where
  isMore : Bool
  isChunked : Bool
  retrieveLen : ℤ
  responseContentLen : UInt32
  responseBufLen : UInt32
  /-- The array `response_buf`, whose length `response_buf_len` need not say, or none for `NULL`. -/
  responseBuf : Option (List UInt8)

/-- The client with its connection and the writer of the partition. -/
structure Client where
  socket : Socket
  http : HttpData
  data : ClientData
  responseCode : ℤ
  /-- A store has gone outside its array; what the code does from then on is not known. -/
  fault : Bool

def Client.after (client : Client) (read : TcpRead) : Client :=
  { client with socket := read.socket, http := read.http }

/-- Store bytes from a place of `response_buf` on. -/
def Client.storeResponse (client : Client) (place : ℕ) (bytes : List UInt8) : Client :=
  match client.data.responseBuf with
  | none => { client with fault := true }
  | some buf =>
      if place + bytes.length ≤ buf.length then
        { client with
          data := { client.data with
            responseBuf := some (buf.take place ++ bytes ++ buf.drop (place + bytes.length)) } }
      else { client with fault := true }

/-- The loop for a response that says no length; a result without a value has not returned yet. -/
def plainLoop : ℕ → Client → Memory UInt8 → UInt32 → UInt32 → Client × Option ℤ
  | 0, client, _, _, _ => (client, none)
  | fuel + 1, client, data, count, len =>
      if count + len < client.data.responseBufLen - 1 then
        let client := client.storeResponse count.toNat (data.load 0 len.toNat)
        let count := count + len
        let client := client.storeResponse count.toNat [0]
        let maxLen := min (UInt32.ofNat (httpclientChunkSize - 1))
          (client.data.responseBufLen - 1 - count)
        let read := httpclientRecv client.socket client.http maxLen.toNat
        let client := client.after read
        if read.ret = errorHttpConn then (client, some read.ret)
        else if read.got = [] then
          ({ client with data := { client.data with isMore := false } }, some successReturn)
        else
          plainLoop fuel client (data.store 0 read.got) count (UInt32.ofNat read.got.length)
      else
        let last := client.data.responseBufLen - 1
        let client := client.storeResponse count.toNat (data.load 0 (last - count).toNat)
        (client.storeResponse last.toNat [0], some httpRetrieveMoreData)

/-- How the loop over the bytes of a block ends. -/
inductive CopyResult
  | returns (client : Client) (ret : Option ℤ)
  | finished (client : Client) (count len : UInt32)

/-- The loop over the bytes of a block. -/
def copyLoop : ℕ → Client → UInt32 → UInt32 → UInt32 → CopyResult
  | 0, client, _, _, _ => .returns client none
  | fuel + 1, client, count, len, readLen =>
      let templen := min len readLen
      if count + templen < client.data.responseBufLen - 1 then
        let count := count + templen
        let client := client.storeResponse count.toNat [0]
        let left := if len > readLen then 0 else readLen - len
        let retrieveLen :=
          if len > readLen then 0 else client.data.retrieveLen - templen.toNat
        let len := if len > readLen then len - readLen else len
        let client := { client with data := { client.data with retrieveLen := retrieveLen } }
        if left ≠ 0 then
          let maxLen := min (min tcpLenMax (client.data.responseBufLen - 1 - count)) left
          let read := httpclientRecv client.socket client.http maxLen.toNat
          let client := client.after read
          if read.ret = errorHttpConn then .returns client (some read.ret)
          else copyLoop fuel client count (UInt32.ofNat read.got.length) left
        else .finished client count len
      else
        let missing := client.data.responseBufLen - 1 - count
        let client := client.storeResponse (client.data.responseBufLen - 1).toNat [0]
        .returns
          { client with
            data := { client.data with
              retrieveLen := client.data.retrieveLen - missing.toNat } }
          (some httpRetrieveMoreData)

/-- How the search for the header of a chunk ends. -/
inductive ChunkHeader
  | returns (client : Client) (ret : Option ℤ)
  /-- The header ends at a place of the buffer. -/
  | found (client : Client) (data : Memory UInt8) (len crlfPos : ℕ)

/-- The loop that looks for the end of the header of a chunk. -/
def chunkHeader : ℕ → Client → Memory UInt8 → ℕ → ChunkHeader
  | 0, client, _, _ => .returns client none
  | fuel + 1, client, data, len =>
      let data := data.store len [0]
      match findCrlf data (len - 2) with
      | some crlfPos => .found client data len crlfPos
      | none =>
          if len < httpclientChunkSize then
            let read := httpclientRecv client.socket client.http (httpclientChunkSize - len - 1)
            let client := client.after read
            if read.ret = errorHttpConn then .returns client (some read.ret)
            else chunkHeader fuel client (data.store len read.got) (len + read.got.length)
          else .returns client (some errorHttp)

/-- How the start of a block is found. -/
inductive BlockStart
  | returns (client : Client) (ret : Option ℤ)
  /-- A block of a length, of which the buffer holds the first bytes. -/
  | block (client : Client) (data : Memory UInt8) (len : ℕ) (readLen : UInt32)

/-- The length of the next block: that of the body, or that of the next chunk. -/
def blockStart (fuel : ℕ) (client : Client) (data : Memory UInt8) (len : ℕ) : BlockStart :=
  if client.data.isChunked ∧ client.data.retrieveLen ≤ 0 then
    match chunkHeader fuel client data len with
    | .returns client ret => .returns client ret
    | .found client data len crlfPos =>
        let line := (data.load 0 crlfPos).takeWhile fun byte => byte ≠ 0
        let data := data.store crlfPos [0]
        match scanHex line with
        | none =>
            .returns { client with data := { client.data with retrieveLen := 0 } }
              (some errorHttpUnresolvedDns)
        | some readLen =>
            let client := { client with
              data := { client.data with
                retrieveLen := readLen.toBitVec.toInt
                responseContentLen := client.data.responseContentLen + readLen } }
            let data := data.store 0 (data.load (crlfPos + 2) (len - (crlfPos + 2)))
            if readLen = 0 then
              .returns { client with data := { client.data with isMore := false } }
                (some successReturn)
            else .block client data (len - (crlfPos + 2)) readLen
  else .block client data len (UInt32.ofInt client.data.retrieveLen)

/-- Move bytes up to a length within the 256 bytes of the buffer. -/
def Client.movedTo (client : Client) (len : ℕ) : Client :=
  { client with fault := client.fault || decide (httpclientChunkSize < len) }

/-- How the end of a chunk is passed. -/
inductive ChunkEnd
  /-- The function returns, or runs over its memory. -/
  | returns (client : Client) (ret : Option ℤ)
  /-- The next chunk begins at the start of the buffer. -/
  | continues (client : Client) (data : Memory UInt8) (len : ℕ)

/-- The line end behind a chunk, which is looked for at the start of the buffer. -/
def chunkEnd (client : Client) (data : Memory UInt8) (len : ℕ) : ChunkEnd :=
  if len < 2 then
    let read := httpclientRecv client.socket client.http (httpclientChunkSize - len - 1)
    let client := client.after read
    if read.ret = errorHttpConn then .returns client (some read.ret)
    else
      let data := data.store len read.got
      let len := len + read.got.length
      if data 0 ≠ 13 ∨ data 1 ≠ 10 then .returns client (some errorHttpUnresolvedDns)
      -- a copy of a negative length does not come back
      else if len < 2 then .returns client none
      else .continues (client.movedTo len) (data.store 0 (data.load 2 (len - 2))) (len - 2)
  else if data 0 ≠ 13 ∨ data 1 ≠ 10 then .returns client (some errorHttpUnresolvedDns)
  else .continues client (data.store 0 (data.load 2 (len - 2))) (len - 2)

/-- The loop over the blocks of a body. -/
def retrieveLoop : ℕ → Client → Memory UInt8 → UInt32 → ℕ → Client × Option ℤ
  | 0, client, _, _, _ => (client, none)
  | fuel + 1, client, data, count, len =>
      match blockStart fuel client data len with
      | .returns client ret => (client, ret)
      | .block client data len readLen =>
          let http := httpWrToFlash (httpFlashInit client.http) (data.load 0 len)
          let http := { http with doData := true, httpTotal := readLen - UInt32.ofNat len }
          match copyLoop fuel { client with http := http } count (UInt32.ofNat len) readLen with
          | .returns client ret => (client, ret)
          | .finished client count len =>
              let client := { client with http := { client.http with doData := false } }
              if client.data.isChunked then
                match chunkEnd client data len.toNat with
                | .returns client ret => (client, ret)
                | .continues client data len => retrieveLoop fuel client data count len
              else
                ({ client with
                   http := httpFlashDeinit (httpFlashWr client.http client.http.wrBuf)
                   data := { client.data with isMore := false } }, some successReturn)

def httpclientRetrieveContent (fuel : ℕ) (client : Client) (data : Memory UInt8) (len : ℕ) :
    Client × Option ℤ :=
  let client := { client with data := { client.data with isMore := true } }
  if client.data.responseContentLen = 0xFFFFFFFF ∧ client.data.isChunked = false then
    plainLoop fuel client data 0 (UInt32.ofNat len)
  else retrieveLoop fuel client data 0 len

/-- Drop the first bytes of a text and keep the terminating zero. -/
def dropText (data : Memory UInt8) (len count : ℕ) : Memory UInt8 :=
  data.store 0 (data.load count (len - count + 1))

/-- What a header line says about the body. -/
def readHeader (data : ClientData) (key value : List UInt8) : ClientData :=
  if key = ascii "Content-Length" then
    let responseContentLen :=
      match scanInt value with
      | some (number, _) => UInt32.ofInt number
      | none => data.responseContentLen
    { data with
      responseContentLen := responseContentLen
      retrieveLen := responseContentLen.toBitVec.toInt }
  else if key = ascii "Transfer-Encoding" ∧
      (value = ascii "Chunked" ∨ value = ascii "chunked") then
    { data with isChunked := true, responseContentLen := 0, retrieveLen := 0 }
  else data

/-- The loop over the header lines. -/
def headerLoop : ℕ → Client → Memory UInt8 → ℕ → Client × Option ℤ
  | 0, client, _, _ => (client, none)
  | fuel + 1, client, data, len =>
      match strstrCrlf data len with
      | none =>
          if len < httpclientChunkSize - 1 then
            let read := httpclientRecv client.socket client.http (httpclientChunkSize - len - 1)
            let client := client.after read
            let data := (data.store len read.got).store (len + read.got.length) [0]
            if read.ret = errorHttpConn then (client, some read.ret)
            else headerLoop fuel client data (len + read.got.length)
          else (client, some errorHttp)
      | some crlfPos =>
          if crlfPos = 0 then
            if client.responseCode ≠ 200 then (client, some mqttSubInfoNotFoundError)
            else httpclientRetrieveContent fuel client (dropText data len 2) (len - 2)
          else
            match scanHeader (data.load 0 crlfPos) with
            | some (key, value) =>
                headerLoop fuel { client with data := readHeader client.data key value }
                  (dropText (data.store crlfPos [0]) len (crlfPos + 2)) (len - (crlfPos + 2))
            | none => (client, some errorHttp)

def httpclientResponseParse (fuel : ℕ) (client : Client) (data : Memory UInt8) (len : ℕ) :
    Client × Option ℤ :=
  let client := { client with data := { client.data with responseContentLen := 0xFFFFFFFF } }
  match strstrCrlf data len with
  | none => (client, some errorHttpUnresolvedDns)
  | some crlfPos =>
      match scanStatus (data.load 0 crlfPos) with
      | none => (client, some errorHttpUnresolvedDns)
      | some code =>
          headerLoop fuel
            { client with
              responseCode := code
              data := { client.data with isChunked := false } }
            (dropText (data.store crlfPos [0]) len (crlfPos + 2)) (len - (crlfPos + 2))

/-- `httpclient_recv_response`, with its buffer. -/
def httpclientRecvResponse (fuel : ℕ) (client : Client) : Client × Option ℤ :=
  let buf : Memory UInt8 := fun _ => 0
  if client.data.isMore then
    httpclientRetrieveContent fuel (client.storeResponse 0 [0]) buf 0
  else
    let client := { client with data := { client.data with isMore := true } }
    let read := httpclientRecv client.socket client.http (httpclientChunkSize - 1)
    let client := client.after read
    if read.ret ≠ 0 then (client, some read.ret)
    else if read.got ≠ [] then
      httpclientResponseParse fuel client ((buf.store 0 read.got).store read.got.length [0])
        read.got.length
    else (client, some read.ret)

/-- `httpclient_common`, with the results of connecting and of sending the request. -/
def httpclientCommon (fuel : ℕ) (connected sent : ℤ) (client : Client) : Client × Option ℤ :=
  if connected ≠ 0 then (client, some connected)
  else if sent ≠ 0 then (client, some sent)
  else if client.data.responseBuf.isSome ∨ client.data.responseBufLen ≠ 0 then
    let (client, ret) := httpclientRecvResponse fuel client
    match ret with
    | none => (client, none)
    | some ret =>
        if ret < 0 then ({ client with http := httpFlashDeinit client.http }, some ret)
        else (client, some 0)
  else (client, some 0)

/-! ## Reads -/

section Reads

variable {http : HttpData} {stream : List UInt8} {script : List NetEvent} {len : ℕ}

theorem take_piece (count : ℕ) (some_left : stream ≠ []) (positive : len ≠ 0) :
    (stream.take (min (max count 1) len)).length ≤ len ∧
      stream.take (min (max count 1) len) ≠ [] := by
  constructor
  · rw [List.length_take]
    omega
  · rw [Ne, List.take_eq_nil_iff]
    rintro (zero | nothing)
    · omega
    · exact some_left nothing

theorem readsOn_piece (idle : http.doData = false) (count : ℕ) :
    readsOn http len count (false || decide (count < len)) = false := by
  rw [readsOn, idle, Bool.false_and, Bool.false_or, Bool.false_or]
  cases decide (count < len) <;> rfl

/-- What a read outside the transfer of a body may do: it fails, or it returns the number of bytes
that it has taken from the stream, which is zero only if none are asked for. -/
def PlainRead (http : HttpData) (stream : List UInt8) (len : ℕ) (read : TcpRead) : Prop :=
  read.http = http ∧
    (read.ret < 0 ∨ read.ret = read.got.length ∧ read.got.length ≤ len ∧
      (len ≠ 0 → read.got ≠ []) ∧ stream = read.got ++ read.socket.stream)

theorem halTcpReadLoop_plain (idle : http.doData = false) :
    PlainRead http stream len (halTcpReadLoop len script stream http [] false) := by
  have condition : readsOn http len ([] : List UInt8).length false = decide (0 < len) := by
    rw [readsOn, idle, Bool.false_and, Bool.false_or, Bool.not_false, Bool.and_true]
    rfl
  -- a round in which nothing is received
  have waits : ∀ script : List NetEvent,
      PlainRead http stream len (halTcpReadLoop len script stream http [] false) →
      PlainRead http stream len
        (if readsOn http len ([] : List UInt8).length false = true then
          halTcpReadLoop len script stream http [] false
        else tcpReturn stream script http [] 0) := by
    intro script later
    rw [condition]
    split
    · exact later
    · rename_i nothing
      refine ⟨rfl, Or.inr ⟨rfl, Nat.zero_le len, ?_, rfl⟩⟩
      intro positive
      exact absurd (decide_eq_true (Nat.pos_of_ne_zero positive)) nothing
  induction script with
  | nil => exact ⟨rfl, Or.inl (Int.negSucc_lt_zero 7)⟩
  | cons event script induction =>
      cases event with
      | closed => exact ⟨rfl, Or.inl (Int.negSucc_lt_zero 0)⟩
      | failed => exact ⟨rfl, Or.inl (Int.negSucc_lt_zero 1)⟩
      | notReady =>
          rw [halTcpReadLoop]
          exact waits script induction
      | bytes count =>
          rw [halTcpReadLoop]
          by_cases none_left : stream = []
          · rw [if_pos none_left]
            exact waits script induction
          rw [if_neg none_left]
          by_cases zero : len = 0
          · rw [if_pos zero]
            exact ⟨rfl, Or.inl (Int.negSucc_lt_zero 0)⟩
          rw [if_neg zero]
          obtain ⟨piece_le, piece_ne⟩ := take_piece count none_left zero
          simp only [idle, List.nil_append, Bool.false_eq_true, if_false, readsOn_piece idle]
          refine ⟨rfl, Or.inr ⟨?_, piece_le, fun _ => piece_ne, ?_⟩⟩
          · exact if_pos fun none_taken => piece_ne (List.length_eq_zero_iff.mp none_taken)
          · exact (List.take_append_drop _ _).symm

/-- What a read of the client outside the transfer of a body may do. -/
theorem httpclientRecv_plain (socket : Socket) (len : ℕ) (idle : http.doData = false) :
    (httpclientRecv socket http len).http = http ∧
      ((httpclientRecv socket http len).ret = errorHttpConn ∨
        (httpclientRecv socket http len).ret = 0 ∧
          (httpclientRecv socket http len).got.length ≤ len ∧
          (len ≠ 0 → (httpclientRecv socket http len).got ≠ []) ∧
          socket.stream = (httpclientRecv socket http len).got ++
            (httpclientRecv socket http len).socket.stream) := by
  obtain ⟨http_eq, result⟩ :=
    @halTcpReadLoop_plain http socket.stream socket.script len idle
  rw [httpclientRecv, halTcpRead]
  rcases result with failed | ⟨ret_eq, got_le, got_ne, split⟩
  · rw [if_neg (by omega), if_neg (by omega)]
    exact ⟨http_eq, Or.inl rfl⟩
  · by_cases some_got : 0 < (halTcpReadLoop len socket.script socket.stream http [] false).ret
    · rw [if_pos some_got]
      exact ⟨http_eq, Or.inr ⟨rfl, got_le, got_ne, split⟩⟩
    · have nothing : (halTcpReadLoop len socket.script socket.stream http [] false).got = [] :=
        List.length_eq_zero_iff.mp (by omega)
      rw [nothing] at ret_eq got_ne split
      have zero : (halTcpReadLoop len socket.script socket.stream http [] false).ret = 0 := ret_eq
      rw [if_neg some_got, if_pos zero]
      exact ⟨http_eq, Or.inr ⟨zero, Nat.zero_le len, got_ne, split⟩⟩

/-- What a read in the transfer of a body may do: every byte that it takes from the stream is handed
over, and it tells how many they are unless it fails. -/
def TransferRead (stream given got : List UInt8) (read : TcpRead) : Prop :=
  ∃ piece, (read.ret < 0 ∨ read.ret = read.got.length) ∧ read.got = got ++ piece ∧
    stream = piece ++ read.socket.stream ∧ HandedOver read.http (given ++ piece) ∧
    read.http.doData = true

variable {given got : List UInt8}

theorem TransferRead.of_return {errCode : ℤ} (handed : HandedOver http given)
    (transfers : http.doData = true) (failed : errCode ≤ 0) :
    TransferRead stream given got (tcpReturn stream script http got errCode) := by
  refine ⟨[], ?_, (List.append_nil got).symm, rfl, ?_, transfers⟩
  · rw [tcpReturn]
    dsimp only
    split
    · exact Or.inr rfl
    · rename_i nothing
      rw [not_not.mp nothing]
      omega
  · rw [List.append_nil]
    exact handed

theorem TransferRead.behind {read : TcpRead} {ret : ℕ}
    (later : TransferRead (stream.drop ret) (given ++ stream.take ret) (got ++ stream.take ret)
      read) : TransferRead stream given got read := by
  obtain ⟨more, ret_eq, got_eq, split, handed, transfers⟩ := later
  refine ⟨stream.take ret ++ more, ret_eq, ?_, ?_, ?_, transfers⟩
  · rw [got_eq, List.append_assoc]
  · rw [List.append_assoc, ← split, List.take_append_drop]
  · rw [← List.append_assoc]
    exact handed

theorem HandedOver.piece (handed : HandedOver http given) (transfers : http.doData = true)
    (fits : (given ++ stream).length < 0xAE000) (ret : ℕ) :
    HandedOver (httpDataProcess http (stream.take ret)) (given ++ stream.take ret) ∧
      (httpDataProcess http (stream.take ret)).doData = true ∧
      (given ++ stream.take ret ++ stream.drop ret).length < 0xAE000 := by
  have whole : given ++ stream.take ret ++ stream.drop ret = given ++ stream := by
    rw [List.append_assoc, List.take_append_drop]
  refine ⟨?_, (transfer_httpWrLoop _ http _).1.trans transfers, by rw [whole]; exact fits⟩
  refine handed.page (Nat.lt_of_le_of_lt ?_ fits)
  rw [← whole]
  exact (List.sublist_append_left _ _).length_le

theorem halTcpReadLoop_transfer {given got : List UInt8} {dataOver : Bool}
    (handed : HandedOver http given) (transfers : http.doData = true)
    (fits : (given ++ stream).length < 0xAE000) :
    TransferRead stream given got (halTcpReadLoop len script stream http got dataOver) := by
  induction script generalizing http stream given got dataOver with
  | nil =>
      refine ⟨[], Or.inl (Int.negSucc_lt_zero 7), (List.append_nil got).symm, rfl, ?_, transfers⟩
      rw [List.append_nil]
      exact handed
  | cons event script induction =>
      -- the end of a round
      have continues : ∀ {http : HttpData} {stream given got : List UInt8} {dataOver : Bool},
          HandedOver http given → http.doData = true → (given ++ stream).length < 0xAE000 →
          TransferRead stream given got
            (if readsOn http len got.length dataOver = true then
              halTcpReadLoop len script stream http got dataOver
            else tcpReturn stream script http got 0) := by
        intro http stream given got dataOver handed transfers fits
        split
        · exact induction handed transfers fits
        · exact TransferRead.of_return handed transfers (Int.le_refl 0)
      cases event with
      | closed => exact TransferRead.of_return handed transfers (Int.negSucc_le_zero 0)
      | failed => exact TransferRead.of_return handed transfers (Int.negSucc_le_zero 1)
      | notReady =>
          rw [halTcpReadLoop]
          exact continues handed transfers fits
      | bytes count =>
          rw [halTcpReadLoop]
          by_cases none_left : stream = []
          · rw [if_pos none_left]
            exact continues handed transfers fits
          rw [if_neg none_left]
          by_cases zero : len = 0
          · rw [if_pos zero]
            exact TransferRead.of_return handed transfers (Int.negSucc_le_zero 0)
          rw [if_neg zero]
          simp only [transfers, if_true]
          obtain ⟨page, still, fits'⟩ := handed.piece transfers fits (min (max count 1) len)
          exact (continues page still fits').behind

/-- What a read of the client in the transfer of a body may do. -/
theorem httpclientRecv_transfer {socket : Socket} (len : ℕ) (handed : HandedOver http given)
    (transfers : http.doData = true) (fits : (given ++ socket.stream).length < 0xAE000) :
    (httpclientRecv socket http len).ret = errorHttpConn ∨
      socket.stream = (httpclientRecv socket http len).got ++
          (httpclientRecv socket http len).socket.stream ∧
        HandedOver (httpclientRecv socket http len).http
          (given ++ (httpclientRecv socket http len).got) ∧
        (httpclientRecv socket http len).http.doData = true := by
  obtain ⟨piece, ret_eq, got_eq, split, handed', transfers'⟩ :=
    @halTcpReadLoop_transfer http socket.stream socket.script len given [] false handed transfers
      fits
  rw [List.nil_append] at got_eq
  rw [httpclientRecv, halTcpRead]
  by_cases some_got : 0 < (halTcpReadLoop len socket.script socket.stream http [] false).ret
  · rw [if_pos some_got]
    exact Or.inr ⟨by rw [got_eq]; exact split, by rw [got_eq]; exact handed', transfers'⟩
  rw [if_neg some_got]
  by_cases zero : (halTcpReadLoop len socket.script socket.stream http [] false).ret = 0
  · obtain rfl : piece = [] := by
      rw [← got_eq, ← List.length_eq_zero_iff]
      omega
    rw [if_pos zero]
    exact Or.inr ⟨split, handed', transfers'⟩
  · rw [if_neg zero]
    exact Or.inl rfl

end Reads

end BdkFreertos.HttpOta
