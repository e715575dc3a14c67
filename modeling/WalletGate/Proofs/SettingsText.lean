import WalletGate.Approval.Request
import WalletGate.Proofs.Fields
import WalletGate.Settings.Codec
import WalletGate.Settings.Validation

/-!
# Settings come back

Settings, what is known of a network client, and the change of network a user is asked about
are written as JSON texts and read again.  They hold texts, truth values, numbers of
sixty-four bits and chain ids, and each of them comes back: a chain id is written in
hexadecimal digits behind `0x`, and these are read up to any number that fits.  A text that
is missing is written as null in one place and left out in another; both are read as
missing.

* `ChainId.parse_display` — a chain id is read from its text;
* `QueueSettings.read_toJson`, `NetworkSettings.read_toJson` — each part is read from what
  it is written as;
* `settings_come_back` — so is each text, and what comes back is as valid as what was written.
-/

namespace WalletGate

open Reading Json

/-! ### Chain ids -/

namespace Text

/-- Nothing is trimmed where nothing is blank. -/
theorem trim_eq_self {s : List Char} (h : ∀ c ∈ s, isBlank c = false) : trim s = s := by
  have hstart : ∀ t : List Char, (∀ c ∈ t, isBlank c = false) → trimStart t = t := by
    intro t ht
    cases t with
    | nil => rfl
    | cons c t => simp [trimStart, ht c (by simp)]
  rw [trim, hstart s h, hstart s.reverse fun c hc => h c (List.mem_reverse.1 hc),
    List.reverse_reverse]

end Text

namespace ChainId

/-- A hexadecimal digit has the value it is written for, and is neither blank nor a sign. -/
theorem hexDigit_spec {n : Nat} (h : n < 16) :
    digitValue? 16 (hexDigit n) = some n ∧ Text.isBlank (hexDigit n) = false ∧
      hexDigit n ≠ '+' := by
  have hall : ∀ n < 16, digitValue? 16 (hexDigit n) = some n ∧ Text.isBlank (hexDigit n) = false ∧
      hexDigit n ≠ '+' := by
    decide
  exact hall n h

/-- Every digit of a number is one of the sixteen. -/
theorem mem_hexDigits {n : Nat} {c : Char} (h : c ∈ hexDigits n) : ∃ d < 16, c = hexDigit d := by
  induction n using Nat.strongRecOn with
  | ind n ih =>
    by_cases hn : n < 16
    · rw [hexDigits, dif_pos hn, List.mem_singleton] at h
      exact ⟨n, hn, h⟩
    · rw [digits_shift (by omega), List.mem_append, List.mem_singleton] at h
      rcases h with h | h
      · exact ih (n / 16) (by omega) h
      · exact ⟨n % 16, by omega, h⟩

/-- Digits behind others are read on top of their value. -/
theorem readDigits_append {radix acc v : Nat} {ds : List Char} (h : readDigits radix acc ds = .ok v)
    (es : List Char) :
    readDigits radix acc (ds ++ es) = readDigits radix v es := by
  induction ds generalizing acc with
  | nil =>
    cases h
    rfl
  | cons c ds ih =>
    rw [List.cons_append, readDigits]
    rw [readDigits] at h
    split at h
    · cases h
    · dsimp only at h ⊢
      split at h
      · cases h
      · next hfits =>
        rw [if_neg hfits]
        exact ih h

/-- A last digit is put behind a value that leaves room for it. -/
theorem readDigits_digit {v n : Nat} (hn : n < 16) (hfits : v * 16 + n < bound) :
    readDigits 16 v [hexDigit n] = .ok (v * 16 + n) := by
  rw [readDigits, (hexDigit_spec hn).1]
  dsimp only
  rw [if_neg (by omega), readDigits]

/-- **The digits of a number that fits are read as that number.** -/
theorem readDigits_hexDigits {n : Nat} (h : n < bound) : readDigits 16 0 (hexDigits n) = .ok n := by
  induction n using Nat.strongRecOn with
  | ind n ih =>
    by_cases hn : n < 16
    · rw [hexDigits, dif_pos hn, readDigits_digit hn (by omega), Nat.zero_mul, Nat.zero_add]
    · have hshorter : readDigits 16 0 (hexDigits (n / 16)) = .ok (n / 16) :=
        ih (n / 16) (by omega) (by omega)
      rw [digits_shift (by omega), readDigits_append hshorter,
        readDigits_digit (by omega) (by omega)]
      congr
      omega

/-- What begins with a digit is read without a sign. -/
theorem readNumber_eq_readDigits {radix : Nat} {c : Char} (h : c ≠ '+') (ds : List Char) :
    readNumber radix (c :: ds) = readDigits radix 0 (c :: ds) := by
  unfold readNumber
  split <;> simp_all

/-- No number is without digits. -/
theorem hexDigits_ne_nil (n : Nat) : hexDigits n ≠ [] := by
  rw [hexDigits]
  split <;> simp

/-- **A chain id is read from the text it is written as.** -/
theorem parse_display (id : ChainId) : parse id.display = .ok id := by
  have hblank : ∀ c ∈ id.toChars, Text.isBlank c = false := by
    intro c hc
    rcases List.mem_cons.1 hc with rfl | hc
    · rfl
    · rcases List.mem_cons.1 hc with rfl | hc
      · rfl
      · obtain ⟨d, hd, rfl⟩ := mem_hexDigits hc
        exact (hexDigit_spec hd).2.1
  have hnumber : readNumber 16 (hexDigits id.value.toNat) = .ok id.value.toNat := by
    obtain ⟨c, ds, hds⟩ := List.exists_cons_of_ne_nil (hexDigits_ne_nil id.value.toNat)
    obtain ⟨d, hd, rfl⟩ := mem_hexDigits (show c ∈ hexDigits id.value.toNat by simp [hds])
    rw [hds, readNumber_eq_readDigits (hexDigit_spec hd).2.2, ← hds,
      readDigits_hexDigits id.value.toNat_lt]
  have hchars : ofChars id.toChars = .ok id := by
    rw [ofChars, Text.trim_eq_self hblank, toChars, splitRadix]
    dsimp only
    rw [hnumber]
    simp [Except.map]
  rw [parse, display, String.toList_ofList, hchars]
  rfl

end ChainId

/-! ### Values at hand -/

namespace Json

section AtHand

variable {β : Type} (room : Nat)

@[simp] theorem format_flag : format.flag = readFlag := rfl

@[simp] theorem format_text : format.text = readString := rfl

@[simp] theorem format_word : format.word = readWord := rfl

@[simp] theorem format_optional (read : Spot → Result β) :
    format.optional read = readOptional read := rfl

@[simp] theorem format_listOf (read : Spot → Result β) : format.listOf read = readList read := rfl

@[simp] theorem format_record {δ : Type} (shape : Shape Spot δ) :
    format.record shape = readRecord shape := rfl

@[simp] theorem readFlag_bool (b : Bool) : readFlag (room, .bool b) = .ok b := rfl

/-- A chain id is read from the text it is written as. -/
@[simp] theorem readChainId_display (id : ChainId) :
    readChainId (room, .text (some id.display)) = .ok id := by
  have hany : readAny (room, .text (some id.display)) = .ok (.text id.display) := rfl
  simp only [readChainId, hany, ok_bind, ChainId.parse_display]

/-- A number of sixty-four bits is read. -/
@[simp] theorem readWord_toNat (n : UInt64) :
    readWord (room, .number (some (.whole n.toNat))) = .ok n := by
  have hbounds : (0 : Int) ≤ n.toNat ∧ (n.toNat : Int) < (Nat.pow 2 64 : Nat) := by
    have hlt : n.toNat < Nat.pow 2 64 := n.toNat_lt
    omega
  rw [readWord, readWhole_whole room hbounds, ok_map, Int.toNat_natCast, UInt64.ofNat_toNat]

/-- A text, or null for none, is read as it was. -/
@[simp] theorem readOptional_ofText? (o : Option String) :
    readOptional readString (room, Source.ofJson (ofText? o)) = .ok o := by
  cases o <;> rfl

/-- The items of an array are read if each of them is. -/
theorem readItems_ofJson {read : Spot → Result β} {write : β → Json} {bs : List β}
    (h : ∀ b ∈ bs, read (room, Source.ofJson (write b)) = .ok b) :
    readItems read room (Items.ofJson (bs.map write)) = .ok bs := by
  induction bs with
  | nil => rfl
  | cons b bs ih =>
    rw [List.map_cons, Items.ofJson, readItems, h b (by simp), ih fun b hb => h b (by simp [hb])]
    rfl

@[simp] theorem readList_list (read : Spot → Result β) (items : Items) :
    readList read (room + 1, .list items) = readItems read room items := rfl

/-- Texts are read. -/
@[simp] theorem readItems_texts (names : List String) :
    readItems readString room (Items.ofJson (names.map text)) = .ok names :=
  readItems_ofJson room fun _ _ => rfl

end AtHand

/-- The numbers of an array are those of its items. -/
theorem allNumbersIn_map {β : Type} {P : Number → Prop} {write : β → Json} {bs : List β}
    (h : ∀ b ∈ bs, (write b).AllNumbers P) : AllNumbersIn P (bs.map write) := by
  induction bs with
  | nil => trivial
  | cons b bs ih => exact ⟨h b (by simp), ih fun b hb => h b (by simp [hb])⟩

end Json

/-! ### Records -/

namespace QueueSettings

/-- **The queue's settings are read from what they are written as.** -/
theorem read_toJson (q : QueueSettings) (room : Nat) :
    QueueSettings.read Json.format (room + 2, Source.ofJson q.toJson) = .ok q := by
  obtain ⟨enabled, confirmation, switch, timeout⟩ := q
  rcases timeout with _ | timeout <;>
    simp [QueueSettings.read, Json.format, toJson, Json.whole, Source.ofJson, Members.ofJson,
      readMembers, shape, Shape.field?,
      Field.over, Shape.meet, Shape.complete, Shape.completeFields]

/-- Their only number is the timeout. -/
theorem allNumbers_toJson (q : QueueSettings) : q.toJson.AllNumbers IsWord := by
  obtain ⟨enabled, confirmation, switch, timeout⟩ := q
  have htexts (names : List String) : AllNumbersIn IsWord (names.map text) :=
    allNumbersIn_map fun _ _ => trivial
  rcases timeout with _ | timeout
  · simp [toJson, AllNumbers, AllNumbersAmong, htexts]
  · have hword : IsWord (.whole timeout.toNat) := by
      have hlt : timeout.toNat < Nat.pow 2 64 := timeout.toNat_lt
      exact ⟨by omega, by omega⟩
    simp [toJson, AllNumbers, AllNumbersAmong, htexts, Json.whole, hword]

end QueueSettings

namespace CustomNetwork

/-- A custom client is read from what it is written as. -/
theorem read_toJson (c : CustomNetwork) (room : Nat) :
    CustomNetwork.read Json.format (room + 1, Source.ofJson c.toJson) = .ok c := by
  obtain ⟨id, chainId, rpcUrl, ticker⟩ := c
  simp [CustomNetwork.read, Json.format, toJson, ClientId.toJson, ChainId.toJson, Source.ofJson,
    Members.ofJson, readMembers,
    shape, Shape.field?, Field.over, Shape.meet, Shape.complete, Shape.completeFields]

/-- It holds no number. -/
theorem allNumbers_toJson (c : CustomNetwork) : c.toJson.AllNumbers IsWord := by
  obtain ⟨id, chainId, rpcUrl, ticker⟩ := c
  cases rpcUrl <;> cases ticker <;>
    simp [toJson, AllNumbers, AllNumbersAmong, ClientId.toJson, ChainId.toJson, ofText?]

end CustomNetwork

namespace NetworkSettings

/-- **The networks' settings are read from what they are written as.** -/
theorem read_toJson (n : NetworkSettings) (room : Nat) :
    NetworkSettings.read Json.format (room + 3, Source.ofJson n.toJson) = .ok n := by
  obtain ⟨selected, custom⟩ := n
  have hcustom : readItems (CustomNetwork.read Json.format) (room + 1)
      (Items.ofJson (custom.map CustomNetwork.toJson)) = .ok custom :=
    readItems_ofJson (room + 1) fun c _ => c.read_toJson room
  simp [NetworkSettings.read, toJson, ClientId.toJson, Source.ofJson, Members.ofJson, readMembers,
    shape, Shape.field?, Field.over, Shape.meet, Shape.complete, Shape.completeFields, hcustom]

/-- They hold no number. -/
theorem allNumbers_toJson (n : NetworkSettings) : n.toJson.AllNumbers IsWord := by
  have hcustom : AllNumbersIn IsWord (n.custom.map CustomNetwork.toJson) :=
    allNumbersIn_map fun c _ => c.allNumbers_toJson
  simp [toJson, AllNumbers, AllNumbersAmong, ClientId.toJson, hcustom]

end NetworkSettings

/-- **Settings are read from the text they are written as.** -/
theorem Settings.readText_toJson (s : Settings) :
    readText (Settings.read Json.format) s.toJson.render = .ok s := by
  obtain ⟨queue, networks⟩ := s
  refine readText_render ?_ ?_
  · simp [toJson, AllNumbers, AllNumbersAmong, queue.allNumbers_toJson, networks.allNumbers_toJson]
  · have hqueue := queue.read_toJson 124
    have hnetworks := networks.read_toJson 123
    simp [readValue, nesting, Settings.read, toJson, Source.ofJson, Members.ofJson, readMembers,
      shape, Shape.field?,
      Field.over, Shape.meet, Shape.complete, Shape.completeFields, hqueue, hnetworks]

/-- What is known of a client is read from the text it is written as. -/
theorem ClientConfig.readText_toJson (c : ClientConfig) :
    readText ClientConfig.read c.toJson.render = .ok c := by
  obtain ⟨chainId, rpcUrl, ticker⟩ := c
  refine readText_render ?_ ?_ <;> rcases rpcUrl with _ | rpcUrl <;> rcases ticker
    with _ | ticker <;>
    simp [toJson, ChainId.toJson, AllNumbers, AllNumbersAmong, readValue, nesting, read,
      Source.ofJson, Members.ofJson,
      readMembers, shape, Shape.field?, Field.over, Shape.meet, Shape.complete,
      Shape.completeFields]

/-- So is a proposed change of network. -/
theorem SwitchProposal.readText_toJson (p : SwitchProposal) :
    readText SwitchProposal.read p.toJson.render = .ok p := by
  obtain ⟨fromChain, toChain, toClient⟩ := p
  refine readText_render ?_ ?_ <;>
    simp [toJson, AllNumbers, AllNumbersAmong, readValue, nesting, read, Source.ofJson,
      Members.ofJson, readMembers, shape,
      Shape.field?, Field.over, Shape.meet, Shape.complete, Shape.completeFields]

/-- **Settings come back**, and so do the records about clients and about changes of
network.  Whatever texts and numbers they hold, and however many clients and methods: what
is read from the text they are written as is what they were.  So validation says of the
settings that are read what it says of those that were written. -/
theorem settings_come_back :
    (∀ s : Settings, readText (Settings.read Json.format) s.toJson.render = .ok s) ∧
    (∀ s : Settings, (readText (Settings.read Json.format) s.toJson.render).map Settings.validate
      = .ok s.validate) ∧
    (∀ c : ClientConfig, readText ClientConfig.read c.toJson.render = .ok c) ∧
    ∀ p : SwitchProposal, readText SwitchProposal.read p.toJson.render = .ok p := by
  refine ⟨Settings.readText_toJson, fun s => ?_, ClientConfig.readText_toJson,
    SwitchProposal.readText_toJson⟩
  rw [s.readText_toJson]
  rfl

end WalletGate
