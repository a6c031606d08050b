/-
Events survive the wire.

An event is written as an object of texts, lists of texts and integers put down as texts, all of
it plain JSON (`isPlain_toJson`).  So what a reader gets is what was written: the type, the
chain, the text of the instant, and a payload with the fields of the event in their order
(`parse_serialize`).  `EventBody.relayed` spells that payload out; it determines the event
within its type, and so does the message.
-/
import Interchain.Event.Wire
import Interchain.Proofs.Json.RoundTrip
import Interchain.Proofs.Text.Decimal
import Mathlib.Data.List.Nodup

namespace Interchain

def Timestamp.IsValid (t : Timestamp) : Prop :=
  -limit ≤ t.milliseconds ∧ t.milliseconds ≤ limit

theorem Timestamp.exists_text? {t : Timestamp} (h : t.IsValid) : ∃ text, t.text? = some text := by
  obtain ⟨hlow, hhigh⟩ := h
  rw [text?, if_neg (by omega)]
  exact ⟨_, rfl⟩

theorem MintReason.name_injective {r r' : MintReason} (h : r.name = r'.name) : r = r' := by
  cases r <;> cases r' <;> first | rfl | exact absurd h (by decide)

theorem RequestKind.name_injective {k k' : RequestKind} (h : k.name = k'.name) : k = k' := by
  cases k <;> cases k' <;> first | rfl | exact absurd h (by decide)

/-! ## Payloads -/

def EventType.fieldNames : EventType → List String
  | .balanceBurnt => ["from", "to", "amount", "dest"]
  | .getDispatched => ["dest", "keys", "height"]
  | .balanceMinted => ["from", "to", "beneficiary", "amount", "reason"]
  | .responseReceived => ["kind", "source", "dest", "nonce"]
  | .timeoutReceived => ["source", "dest", "nonce"]

theorem EventType.fieldNames_plain (t : EventType) :
    t.fieldNames.Nodup ∧ ∀ k ∈ t.fieldNames, Json.index? k = none := by
  cases t <;> decide +kernel

theorem EventType.ofName?_name (t : EventType) : ofName? t.name = some t := by
  cases t <;> rfl

namespace EventBody

/-- The fields of an event as a reader gets them: texts as they are, lists in their order, and
integers as their decimal texts. -/
def relayed : EventBody → List (String × Json)
  | .balanceBurnt sender recipient amount dest =>
    [("from", .string sender), ("to", .string recipient), ("amount", .string (toString amount)),
     ("dest", .string dest)]
  | .getDispatched dest keys height =>
    [("dest", .string dest), ("keys", .array (keys.map .string)),
     ("height", .string (toString height))]
  | .balanceMinted sender recipient beneficiary amount reason =>
    [("from", .string sender), ("to", .string recipient), ("beneficiary", .string beneficiary),
     ("amount", .string (toString amount)), ("reason", .string reason.name)]
  | .responseReceived kind source dest nonce =>
    [("kind", .string kind.name), ("source", .string source), ("dest", .string dest),
     ("nonce", .string (toString nonce))]
  | .timeoutReceived source dest nonce =>
    [("source", .string source), ("dest", .string dest), ("nonce", .string (toString nonce))]

theorem toJsonItems_text (ts : List String) :
    Datum.toJsonItems (ts.map .text) = ts.map .string := by
  induction ts with
  | nil => rfl
  | cons t ts ih =>
    rw [List.map_cons, Datum.toJsonItems, ih]
    rfl

theorem toJson_fields (b : EventBody) : (Datum.record b.fields).toJson = .object b.relayed := by
  cases b with
  | balanceBurnt => rfl
  | getDispatched dest keys height =>
    rw [relayed, ← toJsonItems_text]
    rfl
  | balanceMinted => rfl
  | responseReceived => rfl
  | timeoutReceived => rfl

theorem arePlain_string (ts : List String) : Json.ArePlain (ts.map .string) := by
  induction ts with
  | nil => exact trivial
  | cons t ts ih => exact ⟨trivial, ih⟩

theorem keys_relayed (b : EventBody) : Table.keys b.relayed = b.type.fieldNames := by
  cases b <;> rfl

theorem isPlain_relayed (b : EventBody) : (Json.object b.relayed).IsPlain := by
  have hfields : Json.ArePlainFields b.relayed := by
    cases b with
    | balanceBurnt => exact ⟨trivial, trivial, trivial, trivial, trivial⟩
    | getDispatched dest keys height => exact ⟨trivial, arePlain_string keys, trivial, trivial⟩
    | balanceMinted => exact ⟨trivial, trivial, trivial, trivial, trivial, trivial⟩
    | responseReceived => exact ⟨trivial, trivial, trivial, trivial, trivial⟩
    | timeoutReceived => exact ⟨trivial, trivial, trivial, trivial⟩
  rw [Json.IsPlain, keys_relayed]
  exact ⟨b.type.fieldNames_plain.1, b.type.fieldNames_plain.2, hfields⟩

theorem eq_of_relayed {b b' : EventBody} (htype : b.type = b'.type)
    (h : b.relayed = b'.relayed) : b = b' := by
  cases b with
  | balanceBurnt sender recipient amount dest =>
    cases b' with
    | balanceBurnt sender' recipient' amount' dest' =>
      simp only [relayed, List.cons.injEq, Prod.mk.injEq, Json.string.injEq, true_and,
        and_true] at h
      obtain ⟨rfl, rfl, hamount, rfl⟩ := h
      rw [toString_injective hamount]
    | _ => cases htype
  | getDispatched dest keys height =>
    cases b' with
    | getDispatched dest' keys' height' =>
      simp only [relayed, List.cons.injEq, Prod.mk.injEq, Json.string.injEq, Json.array.injEq,
        true_and, and_true] at h
      obtain ⟨rfl, hkeys, hheight⟩ := h
      have hkeys : keys = keys' := List.map_injective_iff.2 (fun _ _ => Json.string.inj) hkeys
      rw [hkeys, toString_injective hheight]
    | _ => cases htype
  | balanceMinted sender recipient beneficiary amount reason =>
    cases b' with
    | balanceMinted sender' recipient' beneficiary' amount' reason' =>
      simp only [relayed, List.cons.injEq, Prod.mk.injEq, Json.string.injEq, true_and,
        and_true] at h
      obtain ⟨rfl, rfl, rfl, hamount, hreason⟩ := h
      rw [toString_injective hamount, MintReason.name_injective hreason]
    | _ => cases htype
  | responseReceived kind source dest nonce =>
    cases b' with
    | responseReceived kind' source' dest' nonce' =>
      simp only [relayed, List.cons.injEq, Prod.mk.injEq, Json.string.injEq, true_and,
        and_true] at h
      obtain ⟨hkind, rfl, rfl, hnonce⟩ := h
      rw [toString_injective hnonce, RequestKind.name_injective hkind]
    | _ => cases htype
  | timeoutReceived source dest nonce =>
    cases b' with
    | timeoutReceived source' dest' nonce' =>
      simp only [relayed, List.cons.injEq, Prod.mk.injEq, Json.string.injEq, true_and,
        and_true] at h
      obtain ⟨rfl, rfl, hnonce⟩ := h
      rw [toString_injective hnonce]
    | _ => cases htype

end EventBody

/-! ## Messages -/

namespace WireEvent

theorem toJson_ofEvent (e : AssetEvent) :
    (ofEvent e).toJson =
      .object [("eventType", .string e.body.type.name), ("stateMachine", .string e.stateMachine),
        ("timestamp", timeJson e.timestamp), ("payload", .object e.body.relayed)] := by
  rw [← e.body.toJson_fields]
  rfl

theorem isPlain_timeJson (t : Timestamp) : (timeJson t).IsPlain := by
  rw [timeJson]
  split
  · exact trivial
  · exact trivial

theorem isPlain_toJson (e : AssetEvent) : (ofEvent e).toJson.IsPlain := by
  rw [toJson_ofEvent]
  refine ⟨?_, ?_, trivial, trivial, isPlain_timeJson _, e.body.isPlain_relayed, trivial⟩
  · show ["eventType", "stateMachine", "timestamp", "payload"].Nodup
    decide
  · show ∀ k ∈ ["eventType", "stateMachine", "timestamp", "payload"], Json.index? k = none
    decide +kernel

theorem body_eq_of_serialize {e e' : AssetEvent}
    (h : (ofEvent e).serialize = (ofEvent e').serialize) : e.body = e'.body := by
  have hjson := Json.eq_of_render_eq (isPlain_toJson e) (isPlain_toJson e') h
  rw [toJson_ofEvent, toJson_ofEvent] at hjson
  simp only [Json.object.injEq, List.cons.injEq, Prod.mk.injEq, Json.string.injEq, true_and,
    and_true] at hjson
  obtain ⟨hname, -, -, hpayload⟩ := hjson
  have htype := congrArg EventType.ofName? hname
  rw [EventType.ofName?_name, EventType.ofName?_name] at htype
  exact EventBody.eq_of_relayed (Option.some.inj htype) hpayload

theorem parse_serialize_of_text {e : AssetEvent} {text : String}
    (h : e.timestamp.text? = some text) :
    RelayedEvent.parse (ofEvent e).serialize =
      .ok ⟨e.body.type, e.stateMachine, text, e.body.relayed⟩ := by
  have hread : Json.parse? (ofEvent e).serialize = some (ofEvent e).toJson :=
    Json.parse?_render (isPlain_toJson e)
  have htime : timeJson e.timestamp = .string text := by rw [timeJson, h]
  have hevent : RelayedEvent.ofJson? (ofEvent e).toJson =
      some ⟨e.body.type, e.stateMachine, text, e.body.relayed⟩ := by
    rw [toJson_ofEvent, htime]
    show (EventType.ofName? e.body.type.name).map _ = _
    rw [EventType.ofName?_name]
    rfl
  rw [RelayedEvent.parse, hread]
  simp only [hevent]

end WireEvent

/-- The message of an event that has a valid time is read as its type, its chain, the text of
its time, and its fields: texts unchanged, lists in order, integers as their decimal texts.  Two
events of one type whose fields differ have different messages. -/
theorem AssetEvent.parse_serialize (e : AssetEvent) (h : e.timestamp.IsValid) :
    (∃ text, e.timestamp.text? = some text ∧
      RelayedEvent.parse (WireEvent.ofEvent e).serialize =
        .ok ⟨e.body.type, e.stateMachine, text, e.body.relayed⟩) ∧
    ∀ e' : AssetEvent, e'.body.type = e.body.type → e'.body ≠ e.body →
      (WireEvent.ofEvent e').serialize ≠ (WireEvent.ofEvent e).serialize := by
  obtain ⟨text, htext⟩ := Timestamp.exists_text? h
  refine ⟨⟨text, htext, WireEvent.parse_serialize_of_text htext⟩, fun e' _ hne hsame => ?_⟩
  exact hne (WireEvent.body_eq_of_serialize hsame)

/-- A chain whose name needs escapes, and a height that no double holds. -/
theorem AssetEvent.parse_serialize_escaped :
    let chain := "GRANDPA-\"\\\n\u0001\u2028😀"
    let event (height : Int) : AssetEvent :=
      ⟨chain, ⟨0⟩, .getDispatched chain ["0x01", "", "0x00"] height⟩
    let message (height : Int) := (WireEvent.ofEvent (event height)).serialize
    (event (-(2 ^ 80 + 1))).timestamp.IsValid ∧
      RelayedEvent.parse (message (-(2 ^ 80 + 1))) =
        .ok ⟨.getDispatched, chain, "1970-01-01T00:00:00.000Z",
          [("dest", .string chain), ("keys", .array [.string "0x01", .string "", .string "0x00"]),
            ("height", .string "-1208925819614629174706177")]⟩ ∧
      message (-(2 ^ 80)) ≠ message (-(2 ^ 80 + 1)) := by
  intro chain event message
  have hvalid : (event (-(2 ^ 80 + 1))).timestamp.IsValid := by
    show -Timestamp.limit ≤ 0 ∧ 0 ≤ Timestamp.limit
    decide
  obtain ⟨⟨text, htext, hparse⟩, hdiffers⟩ := AssetEvent.parse_serialize _ hvalid
  have htime : (⟨0⟩ : Timestamp).text? = some "1970-01-01T00:00:00.000Z" := by decide +kernel
  obtain rfl : text = "1970-01-01T00:00:00.000Z" := Option.some.inj (htext.symm.trans htime)
  have hheight : toString (-(2 ^ 80 + 1) : Int) = "-1208925819614629174706177" := by
    decide +kernel
  refine ⟨hvalid, ?_, hdiffers (event (-(2 ^ 80))) rfl (by decide +kernel)⟩
  rw [← hheight]
  exact hparse

end Interchain
