import LmsPlayer.LmsProto.Addresses
import LmsPlayer.LmsProto.Hello
import LmsPlayer.LmsProto.Messages.ClientWire

/-!
# Capabilities — what a server makes of the capabilities

A HELO carries the capabilities as one text, with commas between them.  `read` is the other side: it
takes a text for what is in front of the first equals sign and what is behind it, and `readList`
cuts the list at its commas.

Every capability is read back (`read_toString`), but a name may have a comma in it.  The list is
read back exactly if none has (`readList_listToString_iff`): every other comma is one more place to
cut.

The other fields of a HELO are numbers and bytes of a fixed length.  Two things can get lost in
them: what a character of the language is beyond its low byte, and the flag of a reconnect in a
channel list that has the same bit.
-/

namespace LmsPlayer
namespace LmsProto
namespace Capability

open Utf8 (utf8Bytes)

/-! ## Reading -/

/-- What is in front of the first equals sign. -/
def tag (text : String) : String := .ofList (text.toList.takeWhile (· ≠ '='))

/-- What is behind it. -/
def value (text : String) : String := .ofList ((text.toList.dropWhile (· ≠ '=')).drop 1)

def ofParts (tag value : String) : Option Capability :=
  match tag with
  | "wma" => some .wma
  | "wmap" => some .wmap
  | "wmal" => some .wmal
  | "ogg" => some .ogg
  | "flc" => some .flc
  | "pcm" => some .pcm
  | "aif" => some .aif
  | "mp3" => some .mp3
  | "alc" => some .alc
  | "aac" => some .aac
  | "MaxSampleRate" => (readNumber (utf8Bytes value)).map fun rate => .maxsamplerate (.ofNat rate)
  | "Model" => some (.model value)
  | "Modelname" => some (.modelname value)
  | "Rhap" => some .rhap
  | "AccuratePlayPoints" => some .accurateplaypoints
  | "SyncgroupID" => some (.syncgroupid value)
  | "HasDigitalOut" => some .hasdigitalout
  | "HasPreAmp" => some .haspreamp
  | "HasDisableDac" => some .hasdisabledac
  | "Firmware" => some (.firmware value)
  | "Balance" => some .balance
  | "canHTTPS" => some .canHTTPS
  | _ => none

def read (text : String) : Option Capability := ofParts (tag text) (value text)

/-- The texts between the commas. -/
def texts (caps : String) : List String := (caps.toList.splitOn ',').map .ofList

/-- An empty list has no texts, and not one that is empty. -/
def readList (caps : String) : Option (List Capability) :=
  if caps = "" then some [] else (texts caps).mapM read

/-! ## One capability -/

theorem read_append {key : String} (h : '=' ∉ key.toList) (v : String) :
    read (key ++ "=" ++ v) = ofParts key v := by
  have hkey : ∀ c ∈ key.toList, decide (c ≠ '=') = true := by
    intro c hc
    refine decide_eq_true ?_
    rintro rfl
    exact h hc
  have hchars : (key ++ "=" ++ v).toList = key.toList ++ '=' :: v.toList := by
    simp
  have htag : tag (key ++ "=" ++ v) = key := by
    unfold tag
    rw [hchars, List.takeWhile_append_of_pos hkey]
    simp
  have hvalue : value (key ++ "=" ++ v) = v := by
    unfold value
    rw [hchars, List.dropWhile_append_of_pos hkey]
    simp
  rw [read, htag, hvalue]

theorem read_toString (c : Capability) : read c.toString = some c := by
  cases c with
  | maxsamplerate rate =>
      have hread : read ("MaxSampleRate" ++ "=" ++ rate.toNat.repr) = _ :=
        read_append (by decide) rate.toNat.repr
      refine hread.trans ?_
      simp [ofParts, readNumber_repr]
  | model name => exact (read_append (by decide) name : read ("Model" ++ "=" ++ name) = _)
  | modelname name => exact (read_append (by decide) name : read ("Modelname" ++ "=" ++ name) = _)
  | syncgroupid id => exact (read_append (by decide) id : read ("SyncgroupID" ++ "=" ++ id) = _)
  | firmware version =>
      exact (read_append (by decide) version : read ("Firmware" ++ "=" ++ version) = _)
  | _ => decide +kernel

/-! ## The list -/

/-- A list is cut at every comma. -/
theorem length_splitOn (x : Char) (xs : List Char) : (xs.splitOn x).length = xs.count x + 1 := by
  induction xs with
  | nil => rfl
  | cons y ys ih =>
      rw [List.splitOn_cons_eq_if_modifyHead]
      by_cases hy : y = x
      · simp [hy, ih]
      · simp [hy, ih]

/-- The commas of the texts, and the ones between them. -/
theorem count_intercalate (x : Char) (l : List Char) (ls : List (List Char)) :
    ([x].intercalate (l :: ls)).count x = ((l :: ls).map (List.count x)).sum + ls.length := by
  induction ls generalizing l with
  | nil => simp [List.intercalate]
  | cons l' ls ih =>
      rw [List.intercalate_cons_cons, List.count_append, List.count_append, ih]
      simp
      omega

theorem toList_listToString (caps : List Capability) :
    (listToString caps).toList = [','].intercalate (caps.map fun c => c.toString.toList) := by
  rw [listToString, String.toList_intercalate, List.map_map]
  rfl

/-- No comma in the text. -/
def Plain (c : Capability) : Prop := ',' ∉ c.toString.toList

instance : DecidablePred Plain := fun c => inferInstanceAs (Decidable (',' ∉ c.toString.toList))

theorem texts_listToString {c : Capability} {caps : List Capability}
    (h : ∀ c' ∈ c :: caps, c'.Plain) :
    texts (listToString (c :: caps)) = (c :: caps).map toString := by
  unfold texts
  rw [toList_listToString, List.splitOn_intercalate ',' ?_ (by simp), List.map_map]
  · simp
  · intro l hl
    rcases List.mem_map.1 hl with ⟨c', hc', rfl⟩
    exact h c' hc'

theorem mapM_read_toString (caps : List Capability) :
    (caps.map toString).mapM read = some caps := by
  induction caps with
  | nil => rfl
  | cons c caps ih => simp [List.mapM_cons, read_toString, ih]

theorem length_of_mapM_read {ts : List String} {caps : List Capability}
    (h : ts.mapM read = some caps) :
    ts.length = caps.length := by
  induction ts generalizing caps with
  | nil =>
      cases h
      rfl
  | cons t ts ih =>
      simp only [List.mapM_cons, Option.bind_eq_bind, Option.bind_eq_some_iff] at h
      rcases h with ⟨c, -, caps', hrest, heq⟩
      cases heq
      rw [List.length_cons, List.length_cons, ih hrest]

/-- No capability is announced by an empty text. -/
theorem listToString_ne_empty {c : Capability} {caps : List Capability} :
    listToString (c :: caps) ≠ "" := by
  intro hempty
  have hnil : [','].intercalate ((c :: caps).map fun c => c.toString.toList) = [] := by
    rw [← toList_listToString, hempty]
    rfl
  have hread := read_toString c
  have htext : c.toString = "" := by
    rw [← String.toList_eq_nil_iff]
    cases caps with
    | nil => simpa [List.intercalate] using hnil
    | cons c' caps =>
        rw [List.map_cons, List.map_cons, List.intercalate_cons_cons] at hnil
        simp at hnil
  rw [htext] at hread
  have hnone : read "" = none := by decide +kernel
  rw [hnone] at hread
  cases hread

/-- The list is read back exactly if it is cut only where it was put together. -/
theorem readList_listToString_iff (caps : List Capability) :
    readList (listToString caps) = some caps ↔ ∀ c ∈ caps, c.Plain := by
  cases caps with
  | nil => exact ⟨fun _ => nofun, fun _ => rfl⟩
  | cons c caps =>
      unfold readList
      rw [if_neg listToString_ne_empty]
      constructor
      · intro hread
        have hlength := length_of_mapM_read hread
        rw [texts, List.length_map, length_splitOn, toList_listToString, List.map_cons,
          count_intercalate, List.length_map, List.length_cons] at hlength
        -- There are no commas but the ones between the texts.
        have hsum : (((c :: caps).map fun c => c.toString.toList).map (List.count ',')).sum =
            0 := by
          rw [List.map_cons]
          omega
        intro c' hc'
        have hzero := List.sum_eq_zero_iff_forall_eq_nat.1 hsum _
          (List.mem_map_of_mem (List.mem_map_of_mem hc'))
        exact List.count_eq_zero.1 hzero
      · intro hplain
        rw [texts_listToString hplain]
        exact mapM_read_toString (c :: caps)

end Capability

/-! ## The flag of a reconnect -/

theorem getLsbD_or_flag (list : UInt16) (i : Nat) :
    (list ||| 0x0400).toBitVec.getLsbD i = (list.toBitVec.getLsbD i || decide (i = 10)) := by
  have hflag : (0x0400 : UInt16).toBitVec = BitVec.twoPow 16 10 := by decide
  rw [UInt16.toBitVec_or, BitVec.getLsbD_or, hflag, BitVec.getLsbD_twoPow]
  by_cases hi : i = 10
  · simp [hi]
  · simp [hi, Ne.symm hi]

theorem and_flag_eq_zero_iff {list : UInt16} :
    list &&& 0x0400 = 0 ↔ list.toBitVec.getLsbD 10 = false := by
  have hflag : (0x0400 : UInt16).toBitVec = BitVec.twoPow 16 10 := by decide
  rw [← UInt16.toBitVec_inj, UInt16.toBitVec_and, hflag, BitVec.and_twoPow]
  cases list.toBitVec.getLsbD 10 with
  | false => simp
  | true => exact ⟨fun h => absurd h (by decide), nofun⟩

/-- A list that has the bit of the flag looks the same with it. -/
theorem or_flag_of_and_ne_zero {list : UInt16} (h : list &&& 0x0400 ≠ 0) :
    list ||| 0x0400 = list := by
  have hbit : list.toBitVec.getLsbD 10 = true := by
    simpa [and_flag_eq_zero_iff] using h
  refine UInt16.toBitVec_inj.1 (BitVec.eq_of_getLsbD_eq ?_)
  intro i _
  rw [getLsbD_or_flag]
  by_cases hi : i = 10
  · simp [hi, hbit]
  · simp [hi]

/-- From a list that has not, it can be taken off again. -/
theorem flag_inj {list list' : UInt16} (h : list &&& 0x0400 = 0) (h' : list' &&& 0x0400 = 0)
    {flag flag' : Bool} (heq : (if flag then list ||| 0x0400 else list) =
      if flag' then list' ||| 0x0400 else list') : flag = flag' ∧ list = list' := by
  have hbits : ∀ (flag : Bool) (list : UInt16) (i : Nat),
      (if flag then list ||| 0x0400 else list).toBitVec.getLsbD i =
        (list.toBitVec.getLsbD i || (flag && decide (i = 10))) := by
    intro flag list i
    cases flag with
    | false => simp
    | true => exact (getLsbD_or_flag list i).trans (by simp)
  have hsame : ∀ i, (list.toBitVec.getLsbD i || (flag && decide (i = 10))) =
      (list'.toBitVec.getLsbD i || (flag' && decide (i = 10))) := by
    intro i
    rw [← hbits, ← hbits, heq]
  rw [and_flag_eq_zero_iff] at h h'
  refine ⟨?_, UInt16.toBitVec_inj.1 (BitVec.eq_of_getLsbD_eq ?_)⟩
  · -- Bit 10 is the flag, for neither list has it.
    have hlast := hsame 10
    rw [h, h'] at hlast
    simpa using hlast
  · intro i _
    by_cases hi : i = 10
    · rw [hi, h, h']
    · simpa [hi] using hsame i

/-! ## The whole HELO -/

theorem body_eq_of_toBytes_eq {m m' : ClientMessage} (h : m.toBytes = m'.toBytes) :
    m.body = m'.body := by
  have hheader : ∀ m : ClientMessage,
      (m.opcode ++ BigEndian.toBytes 4 ((m.body.length + 4) % 2 ^ 32 - 4)).length = 8 := by
    intro m
    simp
  rw [ClientMessage.toBytes_eq, ClientMessage.toBytes_eq] at h
  exact (List.append_inj h ((hheader m).trans (hheader m').symm)).2

namespace Hello

/-- Nothing in it is lost in the message: there is no comma in a capability, the language is ASCII,
and the channel list leaves the bit of the reconnect free. -/
structure Plain (hello : Hello) : Prop where
  caps : ∀ c ∈ hello.caps, c.Plain
  language : hello.language.1.toNat < 128 ∧ hello.language.2.toNat < 128
  wlanChannelList : hello.wlanChannelList &&& 0x0400 = 0

theorem decode_helo {hello : Hello} (h : hello.Plain) :
    WireMessage.decode hello.helo.opcode hello.helo.body = some hello.helo.wire :=
  ClientMessage.decode_helo _ _ _ _ _ _ _ h.language.1 h.language.2

/-- Two players are told apart. -/
theorem eq_of_helo_eq {hello hello' : Hello} (hplain : hello.Plain) (hplain' : hello'.Plain)
    (h : hello.helo.toBytes = hello'.helo.toBytes) : hello = hello' := by
  have hwire : some hello.helo.wire = some hello'.helo.wire := by
    rw [← decode_helo hplain, ← decode_helo hplain', body_eq_of_toBytes_eq h]
    rfl
  rcases hello with
    ⟨deviceId, revision, mac, uuid, wlanChannelList, bytesReceived, language, reconnect, caps⟩
  rcases hello' with ⟨deviceId', revision', mac', uuid', wlanChannelList', bytesReceived',
    language', reconnect', caps'⟩
  -- Both are read from the same bytes, field by field.
  injection Option.some.inj hwire with hid hrevision hmac huuid hwlan hbytes hlanguage hcaps
  obtain rfl : deviceId = deviceId' := UInt8.toNat_inj.1 hid
  obtain rfl : revision = revision' := UInt8.toNat_inj.1 hrevision
  obtain rfl : mac = mac' := Vector.toList_inj.1 hmac
  obtain rfl : uuid = uuid' := Vector.toList_inj.1 huuid
  obtain rfl : bytesReceived = bytesReceived' := UInt64.toNat_inj.1 hbytes
  obtain rfl : language = language' := hlanguage
  obtain ⟨rfl, rfl⟩ : reconnect = reconnect' ∧ wlanChannelList = wlanChannelList' :=
    flag_inj hplain.wlanChannelList hplain'.wlanChannelList (UInt16.toNat_inj.1 hwlan)
  obtain rfl : caps = caps' := by
    have hread := (Capability.readList_listToString_iff caps).2 hplain.caps
    rw [hcaps, (Capability.readList_listToString_iff caps').2 hplain'.caps] at hread
    exact (Option.some.inj hread).symm
  rfl

/-- With a channel list that has the bit of the reconnect, nobody is told of it. -/
theorem helo_reconnect {hello : Hello} (h : hello.wlanChannelList &&& 0x0400 ≠ 0)
    (reconnect : Bool) :
    ({ hello with reconnect := reconnect } : Hello).helo = hello.helo := by
  have hsame : ∀ flag : Bool,
      (if flag then hello.wlanChannelList ||| 0x0400 else hello.wlanChannelList) =
      hello.wlanChannelList := by
    intro flag
    rw [or_flag_of_and_ne_zero h, ite_self]
  simp only [helo, hsame]

end Hello

/-- **A HELO tells everything that fits in it**: its capabilities are read back, cut at the commas,
exactly if there is no comma in any of them.  When there is none, the language is ASCII and the
channel list leaves the bit of the reconnect free, two such messages are the same bytes only if all
nine fields are the same.  With a channel list that has this bit, the message is the same whether
the player reconnects or not. -/
theorem hello_told (hello : Hello) :
    (Capability.readList (Capability.listToString hello.caps) = some hello.caps ↔
      ∀ c ∈ hello.caps, c.Plain) ∧
    (∀ hello' : Hello, hello.Plain → hello'.Plain →
      (hello.helo.toBytes = hello'.helo.toBytes ↔ hello = hello')) ∧
    (hello.wlanChannelList &&& 0x0400 ≠ 0 → ∀ reconnect : Bool,
      ({ hello with reconnect := reconnect } : Hello).helo.toBytes = hello.helo.toBytes) := by
  refine ⟨Capability.readList_listToString_iff hello.caps, ?_, ?_⟩
  · intro hello' hplain hplain'
    constructor
    · intro h
      exact Hello.eq_of_helo_eq hplain hplain' h
    · rintro rfl
      rfl
  · intro hbit reconnect
    rw [Hello.helo_reconnect hbit reconnect]

/-- A player that wants to join a group, and one that has come back. -/
theorem hello_told_kitchen :
    let hello : Hello :=
      { Hello.new with
        deviceId := 12
        mac := #v[2, 0, 0, 0, 0, 1]
        wlanChannelList := 0x07ff
        language := ('e', 'n')
        caps := [.model "squeezelite", .maxsamplerate 192000, .flc, .syncgroupid "kitchen"] }
    let free : Hello := { hello with wlanChannelList := 0 }
    Capability.readList (Capability.listToString hello.caps) = some hello.caps ∧
      ({ free with reconnect := true } : Hello).helo.toBytes ≠ free.helo.toBytes ∧
      ({ hello with reconnect := true } : Hello).helo.toBytes = hello.helo.toBytes := by
  intro hello free
  have hcaps : ∀ c ∈ hello.caps, c.Plain := by decide
  have hplain : free.Plain := ⟨hcaps, by decide, by decide⟩
  have hplain' : ({ free with reconnect := true } : Hello).Plain := ⟨hcaps, by decide, by decide⟩
  have hother : ({ free with reconnect := true } : Hello) ≠ free := by decide
  refine ⟨(hello_told hello).1.2 hcaps, ?_, (hello_told hello).2.2 (by decide) true⟩
  intro hbytes
  exact hother (((hello_told { free with reconnect := true }).2.1 free hplain' hplain).1 hbytes)

/-- With a comma in a name, two lists are announced by the same text. -/
example : Capability.listToString [.model "squeezelite,ogg"] =
    Capability.listToString [.model "squeezelite", .ogg] := by
  decide

end LmsProto
end LmsPlayer
