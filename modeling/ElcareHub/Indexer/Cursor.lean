import ElcareHub.Indexer.Deduplication
import Mathlib.Data.Nat.Bitwise

/-!
# Cursor tokens

`encodeCursor` signs a version, a ledger, an id and an endpoint, joined by colons, and puts them with the
tag into a base64url text; `decodeCursor` recomputes the tag from what it finds there. The joined text
determines its parts because no number is printed with a colon and the endpoint comes last.
-/

namespace ElcareHub.Indexer.Cursor

/-- A string, by its UTF-16 code units. -/
abbrev Text := List Nat

/-- A field of a parsed value, as `typeof` tells them apart. -/
inductive Value (ν : Type)
  | number (x : ν) | string (t : Text) | other
  deriving DecidableEq

structure Envelope (ν : Type) where
  v : Value ν
  l : Value ν
  i : Value ν
  e : Value ν
  s : Value ν

def maxSafeInteger : Nat := 2 ^ 53 - 1

def isDigits (raw : Text) : Bool := raw ≠ [] && raw.all fun c => 48 ≤ c && c ≤ 57

/-- What comes from the platform. Numbers are those of JavaScript, minus zero being zero. `write` is
`JSON.stringify` and then base64url; `read` is the way back, with `none` for a text that is malformed and
`some none` for `null`. -/
structure Platform (ν : Type) where
  number : Nat → ν
  print : ν → Text
  hmac : Text → Text
  write : Envelope ν → Text
  read : Text → Option (Option (Envelope ν))
  print_injective : Function.Injective print
  colon_notMem_print : ∀ x, 58 ∉ print x
  read_write : ∀ v l i e s, v ≤ maxSafeInteger → l ≤ maxSafeInteger → i ≤ maxSafeInteger →
    let envelope := ⟨.number (number v), .number (number l), .number (number i), .string e, .string s⟩
    read (write envelope) = some (some envelope)
  not_digits : ∀ envelope, isDigits (write envelope) = false

structure CursorPayload (ν : Type) where
  v : ν
  l : ν
  i : ν
  e : Text

structure DecodedCursor (ν : Type) where
  ledger : ν
  id : ν
  endpoint : Text
  isLegacy : Bool

inductive Rejection (ν : Type)
  | malformedToken | typeError | missingFields | signature
  | unsupportedVersion (v : Value ν)
  | issuedFor (endpoint used : Text)

variable {ν : Type} (p : Platform ν)

def data (payload : CursorPayload ν) : Text :=
  p.print payload.v ++ 58 :: (p.print payload.l ++ 58 :: (p.print payload.i ++ 58 :: payload.e))

def sign (payload : CursorPayload ν) : Text := p.hmac (data p payload)

def verify (payload : CursorPayload ν) (sig : Text) : Bool :=
  let expected := sign p payload
  expected.length = sig.length && (expected.zip sig).foldl (fun diff c => diff ||| (c.1 ^^^ c.2)) 0 = 0

def encodeCursor (ledger id : ν) (endpoint : Text) : Text :=
  let payload : CursorPayload ν := ⟨p.number 1, ledger, id, endpoint⟩
  p.write ⟨.number payload.v, .number payload.l, .number payload.i, .string payload.e,
    .string (sign p payload)⟩

def decodeCursor [DecidableEq ν] (raw expectedEndpoint : Text) : Except (Rejection ν) (DecodedCursor ν) :=
  if isDigits raw then
    .ok ⟨p.number (raw.foldl (fun n c => 10 * n + (c - 48)) 0), p.number 0, expectedEndpoint, true⟩
  else match p.read raw with
    | none => .error .malformedToken
    | some none => .error .typeError
    | some (some envelope) =>
      if envelope.v ≠ .number (p.number 1) then .error (.unsupportedVersion envelope.v)
      else match envelope.l, envelope.i, envelope.e, envelope.s with
        | .number l, .number i, .string e, .string s =>
          if verify p ⟨p.number 1, l, i, e⟩ s = false then .error .signature
          else if e ≠ expectedEndpoint then .error (.issuedFor e expectedEndpoint)
          else .ok ⟨l, i, e, false⟩
        | _, _, _, _ => .error .missingFields

/-- Nobody comes up with the tag of a text in `raw` but by having the text signed: `issued` are the
arguments with which `encodeCursor` has been called. -/
def Unforgeable (issued : Set (ν × ν × Text)) (raw : Text) : Prop :=
  ∀ envelope text, p.read raw = some (some envelope) → envelope.s = .string (p.hmac text) →
    ∃ l i e, (l, i, e) ∈ issued ∧ text = data p ⟨p.number 1, l, i, e⟩

variable {p}

theorem verify_iff : verify p payload sig = true ↔ sig = sign p payload := by
  have hfold (xs ys : Text) (d : Nat) (hlen : xs.length = ys.length) :
      (xs.zip ys).foldl (fun diff c => diff ||| (c.1 ^^^ c.2)) d = 0 ↔ d = 0 ∧ ys = xs := by
    induction xs generalizing ys d with
    | nil => simp_all [eq_comm]
    | cons x xs ih =>
      obtain _ | ⟨y, ys⟩ := ys
      · cases hlen
      · rw [List.zip_cons_cons, List.foldl_cons, ih ys _ (by simpa using hlen)]
        simp [and_assoc, eq_comm]
  rw [verify, Bool.and_eq_true, decide_eq_true_eq, decide_eq_true_eq]
  refine ⟨fun h => ((hfold _ _ 0 h.1).mp h.2).2, ?_⟩
  rintro rfl
  exact ⟨rfl, (hfold _ _ 0 rfl).mpr ⟨rfl, rfl⟩⟩

theorem data_injective : Function.Injective (data p) := by
  rintro ⟨v, l, i, e⟩ ⟨v', l', i', e'⟩ h
  obtain ⟨hv, h⟩ := append_colon_inj (p.colon_notMem_print _) (p.colon_notMem_print _) h
  obtain ⟨hl, h⟩ := append_colon_inj (p.colon_notMem_print _) (p.colon_notMem_print _) h
  obtain ⟨hi, rfl⟩ := append_colon_inj (p.colon_notMem_print _) (p.colon_notMem_print _) h
  obtain rfl : v = v' := p.print_injective hv
  obtain rfl : l = l' := p.print_injective hl
  obtain rfl : i = i' := p.print_injective hi
  rfl

/-- A token that is accepted carries the tag of what it says. -/
theorem signed_of_decode [DecidableEq ν]
    (hraw : isDigits raw = false) (h : decodeCursor p raw e = .ok c) :
    c.endpoint = e ∧ ∃ envelope, p.read raw = some (some envelope) ∧
      envelope.s = .string (sign p ⟨p.number 1, c.ledger, c.id, e⟩) := by
  rw [decodeCursor, if_neg (by simp [hraw])] at h
  grind [verify_iff]

/-- **Cursors.** What has been encoded is decoded; and a token that is not all digits is accepted for an
endpoint only if its ledger and id have been signed for this endpoint. -/
theorem cursor_authentic [DecidableEq ν] (p : Platform ν) (issued : Set (ν × ν × Text)) :
    (∀ l i e, l ≤ maxSafeInteger → i ≤ maxSafeInteger →
      decodeCursor p (encodeCursor p (p.number l) (p.number i) e) e =
        .ok ⟨p.number l, p.number i, e, false⟩) ∧
    ∀ raw e c, Unforgeable p issued raw → isDigits raw = false → decodeCursor p raw e = .ok c →
      c.endpoint = e ∧ (c.ledger, c.id, e) ∈ issued := by
  refine ⟨fun l i e hl hi => ?_, fun raw e c hforge hraw h => ?_⟩
  · have hread := p.read_write 1 l i e (sign p ⟨p.number 1, p.number l, p.number i, e⟩) (by decide) hl hi
    simp [decodeCursor, encodeCursor, p.not_digits, hread, verify_iff]
  · obtain ⟨hendpoint, envelope, hread, hs⟩ := signed_of_decode hraw h
    obtain ⟨l, i, e', hissued, htext⟩ := hforge envelope _ hread hs
    cases data_injective htext
    exact ⟨hendpoint, hissued⟩

/-- Numbers in unary and tags that are the text itself: an envelope is written as the lengths of its parts
and the parts. -/
def plain : Platform Nat where
  number := id
  print n := List.replicate n 1
  hmac := id
  write
    | ⟨.number v, .number l, .number i, .string e, .string s⟩ => [200, v, l, i, e.length] ++ (e ++ s)
    | _ => []
  read
    | 200 :: v :: l :: i :: n :: rest =>
      some (some ⟨.number v, .number l, .number i, .string (rest.take n), .string (rest.drop n)⟩)
    | _ => none
  print_injective _ _ h := by simpa using congrArg List.length h
  colon_notMem_print x h := by simpa using List.eq_of_mem_replicate h
  read_write := by simp
  not_digits envelope := by split <;> simp [isDigits]

theorem cursor_authentic_plain : let issued : Set (Nat × Nat × Text) := {(5, 2, [108, 115, 116])}
    decodeCursor plain (encodeCursor plain 5 2 [108, 115, 116]) [108, 115, 116] =
      .ok ⟨5, 2, [108, 115, 116], false⟩ ∧ (5, 2, [108, 115, 116]) ∈ issued := by
  intro issued
  have hauthentic := cursor_authentic plain issued
  have hdecode := hauthentic.1 5 2 [108, 115, 116] (by decide) (by decide)
  refine ⟨hdecode, (hauthentic.2 _ _ _ ?_ (by decide) hdecode).2⟩
  rintro envelope text hread hs
  cases hread
  cases hs
  exact ⟨5, 2, _, rfl, rfl⟩

end ElcareHub.Indexer.Cursor
