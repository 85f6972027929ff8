import LmsPlayer.LmsProto.Addresses
import LmsPlayer.Vibe.Resolve

/-!
# Vibe.ServerAddr — the server named on the command line

`parse_server_addr` tries an address with a port, then an address alone, and looks up anything else:
what is in front of the last colon if there are only digits behind it, or the whole text.

* `serverTarget` is what the text names, before anything is looked up.  An address that has been
  written is an address again, and a host with a port behind it (`Spells`) is this host.
* `resolved_cases`: the lookups go on until one of them does not fail temporarily, and its answer is
  returned; only a deadline can end them before.
-/

namespace LmsPlayer
namespace Vibe

open Iteration
open LmsProto
open Utf8 (utf8Bytes)

/-! ## What the text names -/

/-- The host and the port, for a text that is no address. -/
def hostAndPort (value : String) : String × UInt16 :=
  match rsplitColon value with
  | some (host, portStr) =>
      if portStr.toList.all Char.isDigit then (host, (parseU16 portStr).getD SLIM_PORT)
      else (value, SLIM_PORT)
  | none => (value, SLIM_PORT)

inductive ServerTarget where
  | addr (addr : SocketAddrV4)
  | host (name : String) (port : UInt16)
  deriving DecidableEq, Repr

def serverTarget (value : String) : ServerTarget :=
  -- Try a bare SocketAddrV4 (ip:port).
  match parseSocketAddrV4 value with
  | some addr => .addr addr
  | none =>
      -- Try a bare IPv4 address with the default SlimProto port.
      match parseIpv4Addr value with
      | some ip => .addr { ip := ip, port := SLIM_PORT }
      | none => .host (hostAndPort value).1 (hostAndPort value).2

/-! ## Looking it up -/

inductive ServerAddrError where
  | resolve (e : ResolveError)
  | message (text : String)
  deriving DecidableEq, Repr

/-- Keep the address, or say that there is none. -/
def fromResolved : Except ResolveError (Option SocketAddrV4) → Except ServerAddrError SocketAddrV4
  | .ok (some addr) => .ok addr
  | .ok none => .error (.message "Could not resolve server address")
  | .error e => .error (.resolve e)

/-- `parse_server_addr` called at the time `start`, with at most `fuel` lookups. -/
def parseServerAddr (resolver : String → Nat → Attempt) (value : String) (timeout : Option Duration)
    (start : Instant) (fuel : Nat) : Option (Except ServerAddrError SocketAddrV4) :=
  match serverTarget value with
  | .addr addr => some (.ok addr)
  | .host host port =>
      let deadline := timeout.map fun t => start + t
      (run (resolveRound host port deadline (resolver host)) fuel (.start start)).map fun r =>
        fromResolved r.result

/-! ## Colons and digits -/

theorem isSome_digitValue_of_readDigits {bs : Bytes} {acc n : Nat}
    (h : readDigits acc bs = some n) :
    ∀ b ∈ bs, (digitValue b).isSome := by
  induction bs generalizing acc with
  | nil => exact nofun
  | cons b bs ih =>
      rcases Option.bind_eq_some_iff.1 h with ⟨d, hd, hrest⟩
      intro b' hmem
      rcases List.mem_cons.1 hmem with rfl | hold
      · rw [hd]
        rfl
      · exact ih hrest b' hold

theorem colon_notMem_of_parseOctet {bs : Bytes} {n : UInt8} (h : parseOctet bs = some n) :
    byte ':' ∉ bs := by
  unfold parseOctet at h
  rcases Option.ite_none_left_eq_some.1 h with ⟨-, hread⟩
  rcases Option.bind_eq_some_iff.1 hread with ⟨m, hm, -⟩
  rcases Option.ite_none_left_eq_some.1 hm with ⟨-, hdigits⟩
  intro hmem
  have hcolon : digitValue (byte ':') = none := by decide
  have hsome := isSome_digitValue_of_readDigits hdigits _ hmem
  rw [hcolon] at hsome
  cases hsome

/-- There is no colon in an address. -/
theorem colon_notMem_of_parseIpv4Addr {value : String} {ip : Ipv4Addr}
    (h : parseIpv4Addr value = some ip) : ':' ∉ value.toList := by
  intro hcolon
  have hmem : byte ':' ∈ utf8Bytes value := by
    rw [Utf8.utf8Bytes_eq_flatMap]
    exact List.mem_flatMap.2 ⟨':', hcolon, by decide⟩
  have hjoin : [byte '.'].intercalate ((utf8Bytes value).splitOn (byte '.')) = utf8Bytes value :=
    List.intercalate_splitOn (byte '.')
  rw [← hjoin] at hmem
  unfold parseIpv4Addr at h
  generalize (utf8Bytes value).splitOn (byte '.') = parts at h hmem
  match parts with
  | [a, b, c, d] =>
      simp only [Option.bind_eq_bind, Option.bind_eq_some_iff] at h
      rcases h with ⟨_, ha, _, hb, _, hc, _, hd, -⟩
      -- The colon is not one of the dots.
      have hdot : byte ':' ≠ byte '.' := by decide
      simp [List.intercalate, colon_notMem_of_parseOctet ha, colon_notMem_of_parseOctet hb,
        colon_notMem_of_parseOctet hc, colon_notMem_of_parseOctet hd, hdot] at hmem

theorem rsplitColon_eq_none_iff {value : String} :
    rsplitColon value = none ↔ ':' ∉ value.toList := by
  constructor
  · intro h hcolon
    unfold rsplitColon at h
    dsimp only at h
    split at h
    · rename_i hnil
      have hno := List.dropWhile_eq_nil_iff.1 hnil ':' (List.mem_reverse.2 hcolon)
      exact of_decide_eq_true hno rfl
    · cases h
  · intro h
    cases hsplit : rsplitColon value with
    | none => rfl
    | some parts =>
        rw [(eq_of_rsplitColon hsplit).1] at h
        exact absurd (by simp) h

/-- Behind the last colon there is less than behind any other. -/
theorem suffix_of_append_eq {first last first' last' : String}
    (h : first ++ ":" ++ last = first' ++ ":" ++ last') (hcolon : ':' ∉ last'.toList) :
    last'.toList <:+ last.toList := by
  have hchars : first.toList ++ ':' :: last.toList = first'.toList ++ ':' :: last'.toList := by
    simpa using congrArg String.toList h
  have hsuffix : ':' :: last.toList <:+ first'.toList ++ ':' :: last'.toList :=
    ⟨first.toList, hchars⟩
  have hsuffix' : last'.toList <:+ first'.toList ++ ':' :: last'.toList :=
    (List.suffix_cons ':' last'.toList).trans (List.suffix_append _ _)
  rcases List.suffix_or_suffix_of_suffix hsuffix hsuffix' with hlong | hshort
  · exact absurd (hlong.subset (List.mem_cons_self ..)) hcolon
  · rcases List.suffix_cons_iff.1 hshort with heq | hle
    · rw [heq] at hcolon
      exact absurd (List.mem_cons_self ..) hcolon
    · exact hle

theorem colon_notMem_of_isDigit {digits : String} (h : ∀ c ∈ digits.toList, c.isDigit) :
    ':' ∉ digits.toList := by
  intro hmem
  exact absurd (h ':' hmem) (by decide)

theorem parsePort_eq_some_iff {digits : String} {n : UInt16} :
    parsePort digits = some n ↔ readNumber (utf8Bytes digits) = some n.toNat := by
  unfold parsePort
  rw [Option.bind_eq_some_iff]
  constructor
  · rintro ⟨m, hm, hn⟩
    rcases Option.ite_none_right_eq_some.1 hn with ⟨hlt, hn⟩
    cases hn
    rw [hm, UInt16.toNat_ofNat_of_lt' hlt]
  · intro hn
    exact ⟨n.toNat, hn, by rw [if_pos n.toNat_lt, UInt16.ofNat_toNat]⟩

/-- Without a plus sign in front, both read a port in the same way. -/
theorem parseU16_eq_parsePort {digits : String} (h : ∀ c ∈ digits.toList, c.isDigit) :
    parseU16 digits = parsePort digits := by
  have hplus : (utf8Bytes digits).head? ≠ some (byte '+') := by
    rw [utf8Bytes_of_isDigit h, List.head?_map]
    intro hhead
    rcases Option.map_eq_some_iff.1 hhead with ⟨c, hc, hbyte⟩
    have hdigit := h c (List.mem_of_head? hc)
    have hge : 48 ≤ c.toNat := (Char.isDigit_iff_toNat.1 hdigit).1
    rw [← toNat_byte_of_isDigit hdigit, hbyte] at hge
    exact absurd hge (by decide)
  unfold parseU16 parsePort
  dsimp only
  rw [if_neg hplus]

/-! ## Hosts and ports -/

/-- How a host and a port are spelled: digits behind a colon are a port, or the default one if they
are no `u16`, and a text that does not end in this way is a host. -/
inductive Spells (host : String) : UInt16 → String → Prop where
  | port (digits : String) (n : UInt16) (hdigits : ∀ c ∈ digits.toList, c.isDigit)
      (hn : readNumber (utf8Bytes digits) = some n.toNat) : Spells host n (host ++ ":" ++ digits)
  | noPort (digits : String) (hdigits : ∀ c ∈ digits.toList, c.isDigit)
      (hn : ∀ n : UInt16, readNumber (utf8Bytes digits) ≠ some n.toNat) :
      Spells host SLIM_PORT (host ++ ":" ++ digits)
  | host (hhost : ∀ first last, host = first ++ ":" ++ last → ∃ c ∈ last.toList, ¬c.isDigit) :
      Spells host SLIM_PORT host

theorem hostAndPort_append {host digits : String} (h : ∀ c ∈ digits.toList, c.isDigit) :
    hostAndPort (host ++ ":" ++ digits) = (host, (parsePort digits).getD SLIM_PORT) := by
  unfold hostAndPort
  rw [rsplitColon_append (colon_notMem_of_isDigit h)]
  dsimp only
  rw [if_pos (List.all_eq_true.2 h), parseU16_eq_parsePort h]

theorem hostAndPort_of_spells {host value : String} {port : UInt16} (h : Spells host port value) :
    hostAndPort value = (host, port) := by
  cases h with
  | port digits _ hdigits hn =>
      rw [hostAndPort_append hdigits, parsePort_eq_some_iff.2 hn]
      rfl
  | noPort digits hdigits hn =>
      have hnone : parsePort digits = none := by
        refine Option.eq_none_iff_forall_ne_some.2 ?_
        intro n hsome
        exact hn n (parsePort_eq_some_iff.1 hsome)
      rw [hostAndPort_append hdigits, hnone]
      rfl
  | host hhost =>
      unfold hostAndPort
      cases hsplit : rsplitColon host with
      | none => rfl
      | some parts =>
          rcases hhost parts.1 parts.2 (eq_of_rsplitColon hsplit).1 with ⟨c, hc, hno⟩
          dsimp only
          rw [if_neg]
          intro hall
          exact hno (List.all_eq_true.1 hall c hc)

/-- Every text spells a host and a port. -/
theorem exists_spells (value : String) : ∃ host port, Spells host port value := by
  cases hsplit : rsplitColon value with
  | none =>
      refine ⟨value, SLIM_PORT, .host ?_⟩
      rintro first last rfl
      exact absurd (by simp) (rsplitColon_eq_none_iff.1 hsplit)
  | some parts =>
      rcases parts with ⟨host, last⟩
      rcases eq_of_rsplitColon hsplit with ⟨rfl, hcolon⟩
      by_cases hdigits : ∀ c ∈ last.toList, c.isDigit
      · cases hport : parsePort last with
        | some n => exact ⟨host, n, .port last n hdigits (parsePort_eq_some_iff.1 hport)⟩
        | none =>
            refine ⟨host, SLIM_PORT, .noPort last hdigits ?_⟩
            intro n hn
            rw [parsePort_eq_some_iff.2 hn] at hport
            cases hport
      · -- What is behind the last colon is behind every other one as well.
        simp only [not_forall] at hdigits
        rcases hdigits with ⟨c, hc, hno⟩
        refine ⟨_, SLIM_PORT, .host ?_⟩
        intro first last' heq
        exact ⟨c, (suffix_of_append_eq heq.symm hcolon).subset hc, hno⟩

/-! ## What is an address -/

theorem serverTarget_of_socketAddr {value : String} {addr : SocketAddrV4}
    (h : parseSocketAddrV4 value = some addr) : serverTarget value = .addr addr := by
  unfold serverTarget
  rw [h]

/-- An address alone is not taken for one with a port. -/
theorem serverTarget_of_ipv4Addr {value : String} {ip : Ipv4Addr}
    (h : parseIpv4Addr value = some ip) :
    serverTarget value = .addr { ip := ip, port := SLIM_PORT } := by
  have hnone : parseSocketAddrV4 value = none := by
    unfold parseSocketAddrV4
    rw [rsplitColon_eq_none_iff.2 (colon_notMem_of_parseIpv4Addr h)]
    rfl
  unfold serverTarget
  rw [hnone, h]

theorem serverTarget_of_spells {host value : String} {port : UInt16} (h : Spells host port value)
    (hsock : parseSocketAddrV4 value = none) (hip : parseIpv4Addr value = none) :
    serverTarget value = .host host port := by
  unfold serverTarget
  rw [hsock, hip, hostAndPort_of_spells h]

/-! ## The lookups -/

/-- What the first lookup says that does not fail temporarily. -/
def FirstOutcome (attempts : Nat → Attempt) (outcome : Except LookupError (List IpAddr)) : Prop :=
  ∃ k, (∀ j < k, Again (attempts j).outcome) ∧ ¬Again (attempts k).outcome ∧
    (attempts k).outcome = outcome

theorem FirstOutcome.unique {attempts : Nat → Attempt} {o o' : Except LookupError (List IpAddr)}
    (h : FirstOutcome attempts o) (h' : FirstOutcome attempts o') : o = o' := by
  rcases h with ⟨k, hbefore, hlast, rfl⟩
  rcases h' with ⟨k', hbefore', hlast', rfl⟩
  rcases Nat.lt_trichotomy k k' with hlt | rfl | hgt
  · exact absurd (hbefore' k hlt) hlast
  · rfl
  · exact absurd (hbefore k' hgt) hlast'

section

variable {host : String} {port : UInt16} {deadline : Option Instant} {attempts : Nat → Attempt}

theorem resolved_cases {start : Instant} {r : Resolved}
    (h : Returns (resolveRound host port deadline attempts) (.start start) r) :
    (∃ outcome, FirstOutcome attempts outcome ∧ r.result = answer port outcome) ∨
      deadline ≠ none ∧ ∃ message, r.result = .error (.timedOut message) := by
  have hends := endsOnTime h
  by_cases hlast : Again (attempts r.failed).outcome
  · cases houtcome : (attempts r.failed).outcome with
    | ok addrs =>
        rw [houtcome] at hlast
        exact hlast.elim
    | error e =>
        rw [houtcome] at hlast
        rcases hends.gaveUp e houtcome hlast with ⟨hresult, d, hdeadline, -⟩
        refine .inr ⟨?_, _, hresult⟩
        rw [hdeadline]
        exact nofun
  · exact .inl ⟨_, ⟨r.failed, hends.onTime.again, hlast, rfl⟩, hends.answered hlast⟩

end

/-! ## Every text -/

section

variable {resolver : String → Nat → Attempt} {value host : String} {port : UInt16}
variable {timeout : Option Duration} {start : Instant}

theorem parseServerAddr_of_addr {addr : SocketAddrV4} (h : serverTarget value = .addr addr)
    (fuel : Nat) :
    parseServerAddr resolver value timeout start fuel = some (.ok addr) := by
  unfold parseServerAddr
  rw [h]

theorem parseServerAddr_of_host {result : Except ServerAddrError SocketAddrV4}
    (h : serverTarget value = .host host port) :
    (∃ fuel, parseServerAddr resolver value timeout start fuel = some result) ↔
      ∃ r, Returns (resolveRound host port (timeout.map fun t => start + t) (resolver host))
        (.start start) r ∧ fromResolved r.result = result := by
  unfold parseServerAddr
  rw [h]
  dsimp only
  constructor
  · rintro ⟨fuel, hrun⟩
    rcases Option.map_eq_some_iff.1 hrun with ⟨r, hr, hresult⟩
    exact ⟨r, ⟨fuel, hr⟩, hresult⟩
  · rintro ⟨r, ⟨fuel, hr⟩, hresult⟩
    exact ⟨fuel, Option.map_eq_some_iff.2 ⟨r, hr, hresult⟩⟩

end

/-- **The server is found**: an address, with its port or without it, is taken as it is, and nothing
is looked up, and an address that has been written is this address.  A text that is no address, with
or without a port, spells one host and one port.  This host is looked up until a lookup does not
fail temporarily, and the first address of version 4 that it gives is returned with this port:
without a timeout this is what is returned whenever there is such a lookup, and nothing otherwise;
with a timeout something is always returned, and nothing else but that the time is up. -/
theorem server_addr (resolver : String → Nat → Attempt) (start : Instant) :
    (∀ addr timeout fuel, parseServerAddr resolver (SocketAddrV4.toString addr) timeout start fuel =
      some (.ok addr)) ∧
    (∀ ip timeout fuel, parseServerAddr resolver (Ipv4Addr.toString ip) timeout start fuel =
      some (.ok { ip := ip, port := SLIM_PORT })) ∧
    (∀ value addr timeout fuel, parseSocketAddrV4 value = some addr →
      parseServerAddr resolver value timeout start fuel = some (.ok addr)) ∧
    (∀ value ip timeout fuel, parseIpv4Addr value = some ip →
      parseServerAddr resolver value timeout start fuel =
        some (.ok { ip := ip, port := SLIM_PORT })) ∧
    ∀ value, parseSocketAddrV4 value = none → parseIpv4Addr value = none →
      ∃ host port, Spells host port value ∧
        (∀ host' port', Spells host' port' value → host' = host ∧ port' = port) ∧
        (∀ result, (∃ fuel, parseServerAddr resolver value none start fuel = some result) ↔
          ∃ outcome, FirstOutcome (resolver host) outcome ∧
            result = fromResolved (answer port outcome)) ∧
        ∀ timeout, (∃ fuel result, parseServerAddr resolver value (some timeout) start fuel =
          some result) ∧
          ∀ fuel result, parseServerAddr resolver value (some timeout) start fuel = some result →
            (∃ outcome, FirstOutcome (resolver host) outcome ∧
              result = fromResolved (answer port outcome)) ∨
            ∃ message, result = .error (.resolve (.timedOut message)) := by
  refine ⟨?_, ?_, ?_, ?_, ?_⟩
  · intro addr timeout fuel
    exact parseServerAddr_of_addr
      (serverTarget_of_socketAddr (parseSocketAddrV4_toString addr)) fuel
  · intro ip timeout fuel
    exact parseServerAddr_of_addr (serverTarget_of_ipv4Addr (parseIpv4Addr_toString ip)) fuel
  · intro value addr timeout fuel hsock
    exact parseServerAddr_of_addr (serverTarget_of_socketAddr hsock) fuel
  · intro value ip timeout fuel hip
    exact parseServerAddr_of_addr (serverTarget_of_ipv4Addr hip) fuel
  · intro value hsock hip
    rcases exists_spells value with ⟨host, port, hspells⟩
    have htarget := serverTarget_of_spells hspells hsock hip
    refine ⟨host, port, hspells, ?_, ?_, ?_⟩
    · intro host' port' hspells'
      have heq := (hostAndPort_of_spells hspells').symm.trans (hostAndPort_of_spells hspells)
      exact ⟨congrArg Prod.fst heq, congrArg Prod.snd heq⟩
    · intro result
      rw [parseServerAddr_of_host htarget]
      constructor
      · rintro ⟨r, hreturns, rfl⟩
        rcases resolved_cases hreturns with ⟨outcome, hfirst, hr⟩ | ⟨hdeadline, -⟩
        · exact ⟨outcome, hfirst, congrArg fromResolved hr⟩
        · exact absurd rfl hdeadline
      · rintro ⟨outcome, hfirst, rfl⟩
        have hlookup := hfirst
        rcases hlookup with ⟨k, -, hlast, -⟩
        rcases terminates_of_not_again hlast start with ⟨r, hreturns⟩
        rcases resolved_cases hreturns with ⟨outcome', hfirst', hr⟩ | ⟨hdeadline, -⟩
        · rw [hfirst.unique hfirst']
          exact ⟨r, hreturns, congrArg fromResolved hr⟩
        · exact absurd rfl hdeadline
    · intro timeout
      refine ⟨?_, ?_⟩
      · rcases terminates_resolve host port (resolver host) (start + timeout) (.start start) with
          ⟨r, hreturns⟩
        have hreturned : ∃ fuel, parseServerAddr resolver value (some timeout) start fuel =
            some (fromResolved r.result) :=
          (parseServerAddr_of_host htarget).2 ⟨r, hreturns, rfl⟩
        rcases hreturned with ⟨fuel, hfuel⟩
        exact ⟨fuel, _, hfuel⟩
      · intro fuel result hresult
        rcases (parseServerAddr_of_host htarget).1 ⟨fuel, hresult⟩ with ⟨r, hreturns, rfl⟩
        rcases resolved_cases hreturns with ⟨outcome, hfirst, hr⟩ | ⟨-, message, hr⟩
        · exact .inl ⟨outcome, hfirst, congrArg fromResolved hr⟩
        · exact .inr ⟨message, congrArg fromResolved hr⟩

/-- A host with a port; the first lookup comes too early, and the second one finds another kind of
address in front. -/
theorem server_addr_early :
    ∃ fuel, parseServerAddr
        (fun _ k =>
          { outcome :=
              if k = 0 then .error { kind := .again, text := "again", inner := ⟨.other, "again"⟩ }
              else .ok [.v6, .v4 (.new 10 0 0 1)]
            took := 0
            overslept := 0 })
        "lms:9000" none 0 fuel = some (.ok { ip := .new 10 0 0 1, port := 9000 }) := by
  have hdigits : "9000".toList.all Char.isDigit = true := by decide
  have hspells : Spells "lms" 9000 "lms:9000" :=
    .port "9000" 9000 (List.all_eq_true.1 hdigits) (by decide)
  rcases (server_addr _ 0).2.2.2.2 "lms:9000" (by decide) (by decide) with
    ⟨host, port, -, honly, hreturns, -⟩
  rcases honly _ _ hspells with ⟨rfl, rfl⟩
  refine (hreturns _).2 ⟨.ok [.v6, .v4 (.new 10 0 0 1)], ⟨1, ?_, id, rfl⟩, by decide⟩
  intro j hj
  rw [Nat.lt_one_iff.1 hj]
  rfl

end Vibe
end LmsPlayer
