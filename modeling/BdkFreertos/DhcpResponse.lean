import BdkFreertos.DhcpAssignment

/-!
# The options of a response

A response is read back with the parser of the server.  An area of options is a sequence of types,
lengths and values; the parser finds the options of any such area, whether it ends with the END
option or where the message does.  An OFFER and an ACK end with the option; a NAK is returned before
it is written.
-/

namespace BdkFreertos.Dhcp

variable {dhcps : Dhcps} {msg : Memory UInt8} {type : ResponseType}

/-! ## Areas of options -/

/-- An option with a type and a value. -/
structure TypedOption where
  type : UInt8
  value : List UInt8
  deriving DecidableEq

namespace TypedOption

def bytes (option : TypedOption) : List UInt8 :=
  option.type :: UInt8.ofNat option.value.length :: option.value

/-- An option that is told from END and whose length is told by a byte. -/
structure Fits (option : TypedOption) : Prop where
  not_end : option.type ≠ 0xFF
  short : option.value.length < 256

instance (option : TypedOption) : Decidable option.Fits :=
  decidable_of_iff (option.type ≠ 0xFF ∧ option.value.length < 256)
    ⟨fun ⟨not_end, short⟩ => ⟨not_end, short⟩, fun ⟨not_end, short⟩ => ⟨not_end, short⟩⟩

theorem length_bytes (option : TypedOption) :
    option.bytes.length = sizeofBootpOption + option.value.length := by
  rw [bytes, List.length_cons, List.length_cons, sizeofBootpOption]
  omega

end TypedOption

def area (written : List TypedOption) : List UInt8 :=
  written.flatMap TypedOption.bytes

theorem length_area_le (written : List TypedOption) : written.length ≤ (area written).length := by
  induction written with
  | nil => exact Nat.le_refl _
  | cons option written induction =>
      rw [area, List.flatMap_cons, List.length_append, option.length_bytes, sizeofBootpOption,
        List.length_cons]
      have rest : written.length ≤ (written.flatMap TypedOption.bytes).length := induction
      omega

/-- The option at a place the parser visits. -/
def optionAt (msg : Memory UInt8) (opt : ℕ) : TypedOption where
  type := msg opt
  value := msg.load (opt + sizeofBootpOption) (msg (opt + 1)).toNat

theorem optionAt_of_holds {option : TypedOption} (fits : option.Fits) {opt : ℕ}
    (held : msg.Holds opt option.bytes) :
    optionAt msg opt = option ∧ (msg (opt + 1)).toNat = option.value.length := by
  obtain ⟨type_eq, rest⟩ := Memory.holds_cons.mp held
  obtain ⟨length_eq, value_eq⟩ := Memory.holds_cons.mp rest
  have length_toNat : (msg (opt + 1)).toNat = option.value.length := by
    rw [length_eq, UInt8.toNat_ofNat_of_lt' fits.short]
  refine ⟨?_, length_toNat⟩
  rw [optionAt, length_toNat, type_eq]
  congr

/-- The parser visits exactly the options of an area that fills what is left of the message or has
the END option behind it. -/
theorem optionPlaces_area {written : List TypedOption} (fits : ∀ option ∈ written, option.Fits)
    {rounds len opt : ℕ} (enough : written.length ≤ rounds) (held : msg.Holds opt (area written))
    (ends : len = (area written).length ∨
      (area written).length < len ∧ msg (opt + (area written).length) = 0xFF) :
    (optionPlaces msg rounds len opt).map (optionAt msg) = written := by
  induction written generalizing rounds len opt with
  | nil =>
      cases rounds with
      | zero => rfl
      | succ rounds =>
          rw [optionPlaces, if_neg]
          · rfl
          · rcases ends with rfl | ⟨-, last⟩
            · simp [area]
            · intro goes_on
              exact goes_on.2 last
  | cons option written induction =>
      obtain ⟨rounds, rfl⟩ : ∃ more, rounds = more + 1 := by
        rw [List.length_cons] at enough
        exact ⟨rounds - 1, by omega⟩
      rw [List.length_cons] at enough
      have area_cons : area (option :: written) = option.bytes ++ area written := List.flatMap_cons
      have length_cons : (area (option :: written)).length =
          (sizeofBootpOption + option.value.length) + (area written).length := by
        rw [area_cons, List.length_append, option.length_bytes]
      rw [area_cons, Memory.holds_append, option.length_bytes] at held
      obtain ⟨first, rest⟩ := held
      have first_fits := fits option List.mem_cons_self
      obtain ⟨option_eq, length_eq⟩ := optionAt_of_holds first_fits first
      have visits : 0 < len ∧ msg opt ≠ 0xFF := by
        rw [length_cons, sizeofBootpOption] at ends
        refine ⟨by omega, ?_⟩
        rw [(Memory.holds_cons.mp first).1]
        exact first_fits.not_end
      rw [optionPlaces, if_pos visits]
      simp only [List.map_cons, option_eq, length_eq]
      congr 1
      apply induction (fun later member => fits later (List.mem_cons_of_mem _ member))
      · omega
      · exact rest
      · rw [length_cons, ← Nat.add_assoc] at ends
        rcases ends with whole | ⟨within, last⟩
        · exact Or.inl (by omega)
        · exact Or.inr ⟨by omega, last⟩

/-! ## Responses -/

/-- The options `make_response` writes in front of the END option. -/
def responseOptions (dhcps : Dhcps) (type : ResponseType) : List TypedOption :=
  ⟨53, [type.code]⟩ ::
    if type = .nak then
      []
    else
      [⟨1, wordBytes dhcps.netmask⟩, ⟨51, wordBytes (htonl dhcps.addressTimeout)⟩,
        ⟨54, wordBytes dhcps.myIp⟩, ⟨3, wordBytes dhcps.routerIp⟩,
        ⟨6, wordBytes (if dhcps.nackDnsServer then dhcps.routerIp else 0)⟩]

theorem responseOptions_fit (dhcps : Dhcps) (type : ResponseType) :
    ∀ option ∈ responseOptions dhcps type, option.Fits := by
  intro option member
  cases type <;>
    simp only [responseOptions, reduceCtorEq, if_false, if_true, List.mem_cons, List.not_mem_nil,
      or_false] at member <;>
    rcases member with rfl | rfl | rfl | rfl | rfl | rfl <;>
    exact ⟨by simp, by simp⟩

theorem store_behind (msg : Memory UInt8) (front back : List UInt8) {start place : ℕ}
    (behind : place = start + front.length) :
    (msg.store start front).store place back = msg.store start (front ++ back) := by
  subst behind
  exact Memory.store_store_adjacent msg start front back

/-- What the builder writes is one run of bytes: the options, with END behind them unless the
response is a NAK. -/
theorem writeOptions_eq (dhcps : Dhcps) (msg : Memory UInt8) (type : ResponseType) :
    let written := area (responseOptions dhcps type) ++ if type = .nak then [] else [0xFF]
    writeOptions dhcps msg type =
      (msg.store sizeofBootpHeader written, sizeofBootpHeader + written.length) := by
  intro written
  by_cases nak : type = .nak
  · subst nak
    rfl
  · simp only [writeOptions, writeOption, written, responseOptions, nak, if_false]
    rw [store_behind, store_behind, store_behind, store_behind, store_behind, store_behind]
    all_goals rfl

/-- The options area of a response is a sequence of options that ends with END inside the message,
and the parser visits exactly these options. -/
structure WellFormedResponse (response : Memory UInt8) (len : ℕ) (written : List TypedOption) :
    Prop where
  fits : ∀ option ∈ written, option.Fits
  ends : response.load sizeofBootpHeader (len - sizeofBootpHeader) = area written ++ [0xFF]
  visits : (options response len).map (optionAt response) = written

theorem options_makeResponse {after : Dhcps} {response : Memory UInt8} {len : ℕ}
    (made : makeResponse dhcps msg type = some (after, response, len)) :
    (options response len).map (optionAt response) = responseOptions after type ∧
      response.load sizeofBootpHeader (len - sizeofBootpHeader) =
        area (responseOptions after type) ++ if type = .nak then [] else [0xFF] := by
  obtain ⟨⟨assigned, yiaddr⟩, -, result⟩ := Option.map_eq_some_iff.mp made
  obtain ⟨rfl, response_eq⟩ := Prod.mk.inj result
  rw [writeOptions_eq] at response_eq
  obtain ⟨rfl, rfl⟩ := Prod.mk.inj response_eq
  let written := area (responseOptions assigned type) ++ if type = .nak then [] else [0xFF]
  let response := (writeHeader msg yiaddr).store sizeofBootpHeader written
  have held : response.Holds sizeofBootpHeader written :=
    Memory.holds_store _ _ _
  obtain ⟨options_held, end_held⟩ := Memory.holds_append.mp held
  rw [Nat.add_sub_cancel_left]
  refine ⟨?_, held⟩
  have shorter := length_area_le (responseOptions assigned type)
  refine optionPlaces_area (responseOptions_fit assigned type) ?_ options_held ?_
  · rw [List.length_append]
    omega
  · by_cases nak : type = .nak
    · left
      simp [nak]
    · right
      rw [if_neg nak] at end_held
      refine ⟨by simp [nak], (Memory.holds_cons.mp end_held).1⟩

/-- A response is well formed, with the options that were written, exactly when it is no NAK. -/
theorem response_wellFormed_iff {after : Dhcps} {response : Memory UInt8} {len : ℕ}
    (made : makeResponse dhcps msg type = some (after, response, len)) :
    WellFormedResponse response len (responseOptions after type) ↔ type ≠ .nak := by
  obtain ⟨visits, ends⟩ := options_makeResponse made
  constructor
  · rintro ⟨-, ended, -⟩ rfl
    rw [ends, if_pos rfl] at ended
    exact absurd (List.append_cancel_left ended) (by simp)
  · intro other
    rw [if_neg other] at ends
    exact ⟨responseOptions_fit after type, ends, visits⟩

/-- The acknowledgement of a server without clients. -/
theorem ack_wellFormed :
    ∃ response, makeResponse exampleServer (fun _ => 0) .ack = some (exampleServer, response, 274) ∧
      WellFormedResponse response 274 (responseOptions exampleServer .ack) :=
  ⟨_, rfl, (response_wellFormed_iff rfl).mpr (by decide)⟩

/-- A NAK has no END option. -/
theorem nak_not_wellFormed :
    ∃ response, makeResponse exampleServer (fun _ => 0) .nak = some (exampleServer, response, 243) ∧
      ¬WellFormedResponse response 243 (responseOptions exampleServer .nak) := by
  refine ⟨_, rfl, ?_⟩
  rintro ⟨-, ended, -⟩
  revert ended
  decide

end BdkFreertos.Dhcp
