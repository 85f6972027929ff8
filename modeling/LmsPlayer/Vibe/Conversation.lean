import LmsPlayer.LmsProto.Messages.ClientWire
import LmsPlayer.Vibe.Answers
import LmsPlayer.Vibe.Echo
import LmsPlayer.Vibe.Greeting

/-!
# Vibe.Conversation — what the server reads on a connection

The HELO is written by the slim-proto thread when it opens a connection, everything else by the
slim-write thread of that connection, and what that one writes comes from the event loops and the
resume-timers.  The server sees one stream of bytes.

* `Conversation` is what it may expect of it: a HELO, then reports and names, and behind them
  perhaps a goodbye.  Whatever has been said on a connection at any time is such a conversation.
* The bytes can be told apart again: they split into the messages that have been said, each with its
  fields, and what is left over is the frame that has been begun last.
-/

namespace LmsPlayer
namespace Vibe

open LmsProto
open Utf8 (utf8Bytes)
open TransitionSystem (System)

/-! ## Conversations -/

/-- A report with one of the event codes, or the name of the player. -/
def IsReply : ClientMessage → Prop
  | .stat code _ => ∃ code' : StatusCode, code = code'.toString
  | .name _ => True
  | _ => False

/-- What is said behind a HELO. -/
inductive Conversation (hello : Hello) : List ClientMessage → Prop where
  | ongoing {replies : List ClientMessage} (hreplies : ∀ msg ∈ replies, IsReply msg) :
      Conversation hello (hello.helo :: replies)
  | ended {replies : List ClientMessage} (hreplies : ∀ msg ∈ replies, IsReply msg) :
      Conversation hello (hello.helo :: (replies ++ [.bye 0]))

namespace LogEntry

/-- What the entry adds to the stream of the connection. -/
def saidOn (conn : Connection) : LogEntry → List ClientMessage
  | opened conn' hello => if conn' = conn then [hello.helo] else []
  | wrote conn' _ msg => if conn' = conn then [msg] else []
  | _ => []

end LogEntry

/-- Everything that has been written on the connection so far. -/
def said (conn : Connection) (log : List LogEntry) : List ClientMessage :=
  log.flatMap (LogEntry.saidOn conn)

variable {conn : Connection}

theorem said_append (log entries : List LogEntry) :
    said conn (log ++ entries) = said conn log ++ said conn entries :=
  List.flatMap_append

/-- Where nothing is opened, all that is said comes from the slim-write thread. -/
theorem said_eq_writtenTo {entries : List LogEntry}
    (h : ∀ hello, LogEntry.opened conn hello ∉ entries) :
    said conn entries = writtenTo conn entries := by
  refine List.flatMap_congr ?_
  intro e he
  cases e with
  | opened conn' hello =>
      refine if_neg ?_
      rintro rfl
      exact h hello he
  | _ => rfl

/-- Where nothing is said, nothing has been opened or written. -/
theorem writtenTo_of_said {log : List LogEntry} (h : said conn log = []) :
    writtenTo conn log = [] := by
  rw [← said_eq_writtenTo ?_]
  · exact h
  · intro hello hopened
    have hnone := List.flatMap_eq_nil_iff.1 h _ hopened
    simp [LogEntry.saidOn] at hnone

theorem said_of_byMain {entries : List LogEntry} (h : ∀ e ∈ entries, e.ByMain) :
    said conn entries = [] := by
  refine (said_eq_writtenTo ?_).trans (writtenTo_of_byMain h)
  intro hello hopened
  exact (h _ hopened).elim

/-! ## The HELO comes first -/

/-- What there is of a connection. -/
inductive Pass.Opens {O : Type} (conn : Connection) (log : List LogEntry) (p : Pass O) : Prop where
  | ahead (hbefore : p.proto.Before conn) (hnone : said conn log = [])
  /-- The slim-proto thread has gone by it: it has connected to somewhere else. -/
  | passed (hgone : p.Gone conn) (hnone : said conn log = [])
  | opened (hello : Hello) (hafter : ¬p.proto.Before conn) (hopened : .opened conn hello ∈ log)
      (hsaid : said conn log = hello.helo :: writtenTo conn log)

section Opens

variable {O : Type} {cfg : Config} {k : Nat} {now : Instant} {g g' : Globals} {p p' : Pass O}
  {log entries : List LogEntry}

theorem Pass.Opens.threadStep (hp : p.Opens conn log) (hmanned : p.Manned)
    (h : ThreadStep cfg k now g p g' p' entries) : p'.Opens conn (log ++ entries) := by
  by_cases hopens : ∃ hello, LogEntry.opened conn hello ∈ entries
  · rcases hopens with ⟨hello, hmem⟩
    rcases before_of_opened h hmem with ⟨-, hbefore, hafter, rfl⟩
    cases hp with
    | ahead _ hnone =>
        refine .opened hello hafter (List.mem_append_right _ hmem) ?_
        rw [said_append, hnone, writtenTo_append, writtenTo_of_said hnone]
        simp [said, writtenTo, LogEntry.saidOn, LogEntry.writtenOn]
    | passed hgone => exact absurd hbefore hgone.1
    | opened _ hpast => exact absurd hbefore hpast
  · have hclosed : ∀ hello, LogEntry.opened conn hello ∉ entries :=
      fun hello hmem => hopens ⟨hello, hmem⟩
    have hsame := said_eq_writtenTo hclosed
    cases hp with
    | ahead hbefore hnone =>
        -- Nobody writes on a connection that is still ahead.
        have hwriters : ∀ w ∈ p.writers, w.conn ≠ conn := by
          rintro w hw rfl
          exact hmanned.opened w hw hbefore
        have hsaid : said conn (log ++ entries) = [] := by
          rw [said_append, hnone, hsame, writtenTo_of_unmanned h hwriters]
          rfl
        by_cases hbefore' : p'.proto.Before conn
        · exact .ahead hbefore' hsaid
        · exact .passed ⟨hbefore', writers_of_threadStep h hwriters hclosed⟩ hsaid
    | passed hgone hnone =>
        refine .passed (gone_of_threadStep h hgone) ?_
        rw [said_append, hnone, hsame, writtenTo_of_unmanned h hgone.2]
        rfl
    | opened hello hafter hopened hsaid =>
        refine .opened hello (fun hbefore => hafter (before_of_threadStep h hbefore))
          (List.mem_append_left _ hopened) ?_
        rw [said_append, hsaid, hsame, writtenTo_append]
        rfl

/-- Nothing is said, and the pass is as before. -/
theorem Pass.Opens.quiet (hp : p.Opens conn log) (hnone : said conn entries = [])
    (hbefore : p.proto.Before conn ↔ p'.proto.Before conn)
    (hgone : p.Gone conn → p'.Gone conn) : p'.Opens conn (log ++ entries) := by
  have hsame : said conn (log ++ entries) = said conn log := by
    rw [said_append, hnone, List.append_nil]
  cases hp with
  | ahead hahead hsilent => exact .ahead (hbefore.1 hahead) (hsame.trans hsilent)
  | passed hpassed hsilent => exact .passed (hgone hpassed) (hsame.trans hsilent)
  | opened hello hafter hopened hsaid =>
      refine .opened hello (fun h => hafter (hbefore.2 h)) (List.mem_append_left _ hopened) ?_
      rw [hsame, hsaid, writtenTo_append, writtenTo_of_said hnone, List.append_nil]

end Opens

section Main

variable {O : Type} [AudioOutput O] {cfg : Config} {s t : Process O} {entries : List LogEntry}

theorem opens (h : (system O cfg).Reachable s) (conn : Connection) :
    (s.passes conn.pass).Opens conn s.log := by
  refine System.Reachable.invariant (fun s : Process O => (s.passes conn.pass).Opens conn s.log)
    ?_ ?_ h
  · rintro s ⟨now, hostname, rfl⟩
    by_cases hbefore : ((Process.start cfg now hostname : Process O).passes conn.pass).proto.Before
      conn
    · exact .ahead hbefore rfl
    · refine .passed ⟨hbefore, ?_⟩ rfl
      exact fun w hw => absurd hw List.not_mem_nil
  · intro s t hs ih hstep
    cases hstep with
    | @main t entries hmoved =>
        rcases proto_of_mainStep hs hmoved conn.pass with ⟨reconnect, hproto⟩
        show (t.passes conn.pass).Opens conn (t.log ++ entries)
        rw [hmoved.log_eq]
        refine ih.quiet (said_of_byMain (byMain_of_mainStep hmoved)) ?_
          (gone_of_mainStep hs hmoved)
        rw [hproto]
        rfl
    | @thread k g' p' entries hrun hk hmoved =>
        by_cases hpass : conn.pass = k
        · subst hpass
          have hmove := ih.threadStep (manned hs _) hmoved
          show ((s.setPass conn.pass p').passes conn.pass).Opens conn (s.log ++ entries)
          rw [Process.setPass_passes_self]
          exact hmove
        · -- The threads of another pass neither open the connection nor write on it.
          have hclosed : ∀ hello, LogEntry.opened conn hello ∉ entries :=
            fun hello hmem => hpass (before_of_opened hmoved hmem).1
          have hnone : said conn entries = [] := by
            rw [said_eq_writtenTo hclosed]
            exact writtenTo_eq_nil fun sender msg hmem =>
              hpass (conn_of_wrote hmoved (wired hs k) hmem)
          show ((s.setPass k p').passes conn.pass).Opens conn (s.log ++ entries)
          rw [Process.setPass_passes_of_ne _ _ hpass]
          exact ih.quiet hnone Iff.rfl id
    | tick d => exact ih

/-! ## The replies, and the goodbye behind them -/

theorem isReply_of_agrees {e : Echo} {msg : ClientMessage} (h : e.Agrees msg) : IsReply msg := by
  cases msg with
  | stat code status => exact h.1
  | name newName => trivial
  | _ => exact h.elim

theorem isReply_of_reportsResume {msg : ClientMessage} (h : ReportsResume msg) : IsReply msg := by
  cases msg with
  | stat code status => exact ⟨.resume, h⟩
  | _ => exact h.elim

omit [AudioOutput O] in
theorem mem_writtenTo {msg : ClientMessage} {log : List LogEntry} :
    msg ∈ writtenTo conn log ↔ ∃ sender, LogEntry.wrote conn sender msg ∈ log := by
  constructor
  · intro h
    rcases List.mem_flatMap.1 h with ⟨e, he, hmem⟩
    cases e with
    | wrote conn' sender msg' =>
        simp only [LogEntry.writtenOn] at hmem
        split_ifs at hmem with hconn
        · rw [List.mem_singleton.1 hmem, ← hconn]
          exact ⟨sender, he⟩
        · exact absurd hmem List.not_mem_nil
    | _ => exact absurd hmem List.not_mem_nil
  · rintro ⟨sender, he⟩
    refine List.mem_flatMap.2 ⟨_, he, ?_⟩
    simp [LogEntry.writtenOn]

/-- What is written behind the HELO is a reply or a goodbye: an event loop has sent it, or a
resume-timer. -/
theorem isReply_or_bye (h : (system O cfg).Reachable s) {msg : ClientMessage}
    (hmsg : msg ∈ writtenTo conn s.log) : IsReply msg ∨ ∃ val, msg = .bye val := by
  by_cases hresume : ReportsResume msg
  · exact Or.inl (isReply_of_reportsResume hresume)
  · have hordered : msg ∈ ordered (writtenTo conn s.log) :=
      List.mem_filter.2 ⟨hmsg, decide_eq_true hresume⟩
    have hkept := (answers h conn).kept.subset (List.mem_append_left _ hordered)
    rcases List.mem_map.1 (List.mem_filter.1 hkept).1 with ⟨sent, hsent, rfl⟩
    by_cases hbye : sent = .bye 1
    · rw [hbye]
      exact Or.inr ⟨0, rfl⟩
    · rcases List.mem_flatMap.1 hsent with ⟨e, he, hmem⟩
      rcases LogEntry.sent_of_mem_sentIn hmem hbye with ⟨now, hby⟩
      rcases List.getElem?_of_mem he with ⟨n, hn⟩
      have hreply : IsReply sent := isReply_of_agrees ((echoes h).agree n e hn now _ hby)
      unfold writerMessage
      rw [if_neg hbye]
      exact Or.inl hreply

/-- The replies end with the goodbye, if there is one. -/
theorem exists_replies (h : (system O cfg).Reachable s) (conn : Connection) :
    ∃ replies, (∀ msg ∈ replies, IsReply msg) ∧
      (writtenTo conn s.log = replies ∨ writtenTo conn s.log = replies ++ [.bye 0]) := by
  by_cases hsaid : SaidGoodbye conn s.log
  · rcases hsaid with ⟨sender, val, hmem⟩
    rcases List.append_of_mem hmem with ⟨before, after, hlog⟩
    rcases (parted h conn).last before sender val after hlog with ⟨rfl, -, hnone⟩
    have hwritten : writtenTo conn s.log = writtenTo conn before ++ [.bye 0] := by
      calc
        writtenTo conn s.log
            = writtenTo conn before ++ ([.bye 0] ++ writtenTo conn after) := by
              rw [hlog, writtenTo_append]
              simp [writtenTo, LogEntry.writtenOn]
        _ = writtenTo conn before ++ [.bye 0] := by rw [hnone, List.append_nil]
    refine ⟨_, ?_, Or.inr hwritten⟩
    intro msg hmsg
    have hall : msg ∈ writtenTo conn s.log := by
      rw [hwritten]
      exact List.mem_append_left _ hmsg
    rcases isReply_or_bye h hall with hreply | ⟨val, rfl⟩
    · exact hreply
    · -- There would be something behind a goodbye.
      rcases mem_writtenTo.1 hmsg with ⟨sender', hbefore⟩
      rcases List.append_of_mem hbefore with ⟨first, rest, rfl⟩
      rw [List.append_assoc, List.cons_append] at hlog
      have hlast := ((parted h conn).last first sender' val _ hlog).2.2
      have hbye : ClientMessage.bye 0 ∈ writtenTo conn
          (rest ++ .wrote conn sender (.bye 0) :: after) :=
        mem_writtenTo.2 ⟨sender, List.mem_append_right _ (List.mem_cons_self ..)⟩
      rw [hlast] at hbye
      exact absurd hbye List.not_mem_nil
  · refine ⟨_, ?_, Or.inl rfl⟩
    intro msg hmsg
    rcases isReply_or_bye h hmsg with hreply | ⟨val, rfl⟩
    · exact hreply
    · rcases mem_writtenTo.1 hmsg with ⟨sender, hmem⟩
      exact absurd ⟨sender, val, hmem⟩ hsaid

end Main

/-! ## Reading the bytes -/

/-- The message fits its frame and its fields: a length can say how long it is with its text, and a
report is from the first 49 days of the player. -/
def Fits : ClientMessage → Prop
  | .helo _ _ _ _ _ _ _ capabilities => (utf8Bytes capabilities).length < 2 ^ 32 - 40
  | .stat _ status => status.jiffies.asMillis < 2 ^ 32 ∧ status.timestamp.asMillis < 2 ^ 32
  | .bye _ => True
  | .name newName => (utf8Bytes newName).length < 2 ^ 32 - 5

theorem readable_helo {hello : Hello} (hlanguage : hello.language = Hello.new.language)
    (h : Fits hello.helo) :
    hello.helo.Encodable ∧ hello.helo.body.length < 2 ^ 32 - 4 := by
  have hlength : hello.helo.body.length =
      36 + (utf8Bytes (Capability.listToString hello.caps)).length := by
    simp [Hello.helo, ClientMessage.body, ClientMessage.length_putU8, ClientMessage.length_putU16,
      ClientMessage.length_putU64]
    omega
  have hfits : (utf8Bytes (Capability.listToString hello.caps)).length < 2 ^ 32 - 40 := h
  have hascii : hello.helo.Encodable := by
    show hello.language.1.toNat < 128 ∧ hello.language.2.toNat < 128
    rw [hlanguage]
    decide
  refine ⟨hascii, ?_⟩
  rw [hlength]
  omega

theorem readable_reply {msg : ClientMessage} (hreply : IsReply msg) (h : Fits msg) :
    msg.Encodable ∧ msg.body.length < 2 ^ 32 - 4 := by
  cases msg with
  | stat code status =>
      rcases hreply with ⟨code', rfl⟩
      have hcode := code'.length_utf8Bytes_toString
      refine ⟨⟨hcode, h⟩, ?_⟩
      simp [ClientMessage.body, ClientMessage.length_putU8, ClientMessage.length_putU16,
        ClientMessage.length_putU32, ClientMessage.length_putU64, hcode]
  | name newName =>
      refine ⟨trivial, ?_⟩
      have hfits : (utf8Bytes newName).length < 2 ^ 32 - 5 := h
      simp [ClientMessage.body, ClientMessage.length_putU8]
      omega
  | _ => exact hreply.elim

theorem Conversation.readable {hello : Hello} {msgs : List ClientMessage}
    (h : Conversation hello msgs)
    (hlanguage : hello.language = Hello.new.language) (hfits : ∀ msg ∈ msgs, Fits msg)
    {msg : ClientMessage} (hmsg : msg ∈ msgs) :
    msg.Encodable ∧ msg.body.length < 2 ^ 32 - 4 := by
  have hfit := hfits msg hmsg
  cases h with
  | ongoing hreplies =>
      rcases List.mem_cons.1 hmsg with rfl | hreply
      · exact readable_helo hlanguage hfit
      · exact readable_reply (hreplies msg hreply) hfit
  | ended hreplies =>
      rcases List.mem_cons.1 hmsg with rfl | hbehind
      · exact readable_helo hlanguage hfit
      · rcases List.mem_append.1 hbehind with hreply | hbye
        · exact readable_reply (hreplies msg hreply) hfit
        · rw [List.mem_singleton.1 hbye]
          exact ⟨trivial, by decide⟩

section Main

variable {O : Type} [AudioOutput O] {cfg : Config} {s : Process O}

/-- **What is said on a connection is a conversation**, in every reachable state: a HELO, then
reports and names, and behind them at most a goodbye.  The server can tell the messages apart, and
reads from each what it says; behind them is left over what there is of the next one. -/
theorem conversation (h : (system O cfg).Reachable s) (conn : Connection) :
    said conn s.log = [] ∨
      ∃ hello, LogEntry.opened conn hello ∈ s.log ∧ Conversation hello (said conn s.log) ∧
        ((∀ msg ∈ said conn s.log, Fits msg) → ∀ (next : ClientMessage) (tail : Bytes),
          next.body.length < 2 ^ 32 - 4 → tail <+: next.toBytes → tail ≠ next.toBytes →
            clientReader.split ((said conn s.log).flatMap ClientMessage.toBytes ++ tail) =
                ((said conn s.log).map fun msg => (msg.opcode, msg.body), tail) ∧
              ∀ msg ∈ said conn s.log, WireMessage.decode msg.opcode msg.body = some msg.wire) := by
  have hopens := opens h conn
  cases hopens with
  | ahead _ hnone => exact Or.inl hnone
  | passed _ hnone => exact Or.inl hnone
  | opened hello _ hopened hsaid =>
      have hconversation : Conversation hello (said conn s.log) := by
        rcases exists_replies h conn with ⟨replies, hreplies, hwritten | hwritten⟩
        · rw [hsaid, hwritten]
          exact .ongoing hreplies
        · rw [hsaid, hwritten]
          exact .ended hreplies
      refine Or.inr ⟨hello, hopened, hconversation, ?_⟩
      intro hfits next tail hnext hpre hne
      have hlanguage : hello.language = Hello.new.language := by
        rcases for_of_opened h hopened with ⟨sg, hfor⟩
        exact hfor.unset.2.2.2
      have hreadable : ∀ msg ∈ said conn s.log, msg.Encodable ∧ msg.body.length < 2 ^ 32 - 4 :=
        fun msg hmsg => hconversation.readable hlanguage hfits hmsg
      have hencodes : ∀ msg ∈ said conn s.log,
          clientReader.Encodes ClientMessage.toBytes (fun msg => (msg.opcode, msg.body)) msg :=
        fun msg hmsg => ClientMessage.encodes_of_length_lt (hreadable msg hmsg).2
      have hleft : clientReader.next tail = none :=
        StreamSplitting.ItemReader.next_eq_none_of_prefix (ClientMessage.encodes_of_length_lt hnext)
          hpre hne
      refine ⟨?_, ?_⟩
      · rw [StreamSplitting.ItemReader.split_flatMap_append hencodes,
          clientReader.split_of_next_eq_none hleft, List.append_nil]
      · intro msg hmsg
        exact ClientMessage.decode_opcode_body (hreadable msg hmsg).1

end Main

/-! ## A run -/

/-- The player answers a Queryname, loses the connection and says goodbye; three bytes of another
message do not get in the way. -/
theorem conversation_parted : ∃ s : Process PulseOutput,
    (system PulseOutput cliConfig).Reachable s ∧
      said firstConnection s.log = [firstHello.helo, .name "Vibe", .bye 0] ∧
      (clientReader.split
          ((said firstConnection s.log).flatMap ClientMessage.toBytes ++ utf8Bytes "BYE")).2 =
        utf8Bytes "BYE" := by
  rcases exists_parted with ⟨s, hs, hlog⟩
  have hsaid : said firstConnection s.log = [firstHello.helo, .name "Vibe", .bye 0] := by
    rw [hlog]
    rfl
  have hfits : ∀ msg ∈ said firstConnection s.log, Fits msg := by
    rw [hsaid]
    intro msg hmsg
    simp only [List.mem_cons, List.not_mem_nil, or_false] at hmsg
    rcases hmsg with rfl | rfl | rfl
    · show (utf8Bytes (Capability.listToString firstHello.caps)).length < 2 ^ 32 - 40
      decide +kernel
    · show (utf8Bytes "Vibe").length < 2 ^ 32 - 5
      decide
    · trivial
  refine ⟨s, hs, hsaid, ?_⟩
  rcases conversation hs firstConnection with hnone | ⟨hello, _, _, hread⟩
  · rw [hsaid] at hnone
    cases hnone
  · have hsplit := (hread hfits (.bye 0) (utf8Bytes "BYE") (by decide) (by decide) (by decide)).1
    rw [hsplit]

end Vibe
end LmsPlayer
