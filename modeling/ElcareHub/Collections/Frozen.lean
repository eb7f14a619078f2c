import ElcareHub.Collections.NormalNFT721.Supply
import ElcareHub.Collections.NormalNFT1155

/-!
# Frozen metadata

`freeze_token` freezes the metadata of one token for good: from then on `set_token_uri` refuses the token.
The URI that is reported for a token is resolved from two sources, though, the URI stored for the token
and the base URI of the collection, and where there is a base URI it comes first. `set_base_uri` asks
whether the metadata of the collection is frozen, not whether any token is, so that a new base URI
changes the URI reported for a frozen token.

As long as the base URI stays what it is, the reported URI of a frozen token does too, whatever else is
called (`NormalNFT721.reported_run`, `NormalNFT1155.reported_run`).
-/

set_option synthInstance.maxSize 100000000

namespace ElcareHub.Collection

/-- What the URI that is reported for a token is resolved from, and whether it has been frozen. -/
structure Sources where
  tokenUri : Option String
  baseUri : Option String
  frozen : Bool

end ElcareHub.Collection

/-! ### NormalNFT721 -/

namespace ElcareHub.NormalNFT721

open Collection Call Function

variable {j : Nat} {recipient : Address}
variable {uri : String} {uris : List String} {caller : Address}

abbrev State.sources (i : Nat) (s : State) : Sources := ⟨s.tokenUri i, s.baseUri, s.tokenFrozen i⟩

/-- What `token_uri` answers. -/
def State.reported (s : State) (i : Nat) : Except (Fault Error) String :=
  (NormalNFT721.tokenUri i s).map Prod.fst

variable {env : Env} {s s' : State} {i : Nat}

/-- For a token that exists, the answer depends on the sources only. -/
theorem reported_congr (hs : (s.owner i).isSome) (hs' : (s'.owner i).isSome)
    (h : s'.sources i = s.sources i) : s'.reported i = s.reported i := by
  obtain ⟨a, ha⟩ := Option.isSome_iff_exists.mp hs
  obtain ⟨a', ha'⟩ := Option.isSome_iff_exists.mp hs'
  simp only [Sources.mk.injEq] at h
  obtain ⟨htoken, hbase, -⟩ := h
  cases hb : s.baseUri <;> cases ht : s.tokenUri i <;>
    simp [State.reported, NormalNFT721.tokenUri, requireOwner, bind, andThen, view, orAbort, pure,
      Except.map, ha, ha', hbase, hb, htoken, ht]

section Frames

instance sources_onBase (c : Call (Fault Error) Base α) : Preserves (State.sources i) (onBase c) :=
  @Preserves.zoom _ _ _ _ _ _ _ _ _ _ (fun _ => ()) ⟨fun _ => rfl⟩ fun _ _ _ => rfl

instance : Preserves (State.sources i) (onlyCreator env) := sources_onBase _

/-- The URI of another token. -/
theorem sources_setTokenUriEntry (hne : i ≠ j) (uri : Option String) :
    Preserves (State.sources i) (setTokenUriEntry j uri) :=
  .update fun s => by simp [State.sources, hne]

end Frames

/-! ### Calls -/

theorem mint_sources (h : Returns (mint env recipient uri) s j s') (hi : i < s.nextTokenId) :
    s'.sources i = s.sources i := by
  obtain ⟨_, h⟩ := h.pass
  -- the checks leave the whole state alone, up to the reading of the counter
  obtain ⟨_, h⟩ := h.pass
  obtain ⟨_, h⟩ := h.pass
  replace h := h.view
  have hentry := sources_setTokenUriEntry (i := i) (j := s.nextTokenId) (by omega)
  exact h.last rfl

theorem batchMintLoop_sources
    (h : Returns (batchMintLoop recipient n uris) s m s') (hi : i < n.nextTokenId) :
    s'.sources i = s.sources i := by
  induction uris generalizing n s with
  | nil =>
    obtain ⟨-, rfl⟩ := h.pure
    rfl
  | cons uri uris ih =>
    have hentry := sources_setTokenUriEntry (i := i) (j := n.nextTokenId) (by omega)
    obtain ⟨_, _, s2, e2, h⟩ := h.skip₂ (f := State.sources i) rfl
    obtain ⟨-, h⟩ := returns_addUpTo_bind.mp h
    obtain ⟨supply, s3, e3, h⟩ := h.skip e2
    obtain ⟨bal, s4, e4, h⟩ := h.skip e3
    exact (ih h (Nat.lt_succ_of_lt hi)).trans e4

theorem batchMint_sources (h : Returns (batchMint env recipient uris) s () s')
    (hi : i < s.nextTokenId) : s'.sources i = s.sources i := by
  obtain ⟨_, _, _, h⟩ := h.pass₃
  obtain ⟨_, h⟩ := h.pass
  obtain ⟨_, h⟩ := h.pass
  replace h := h.view
  obtain ⟨_, _, _, _, s5, e, h⟩ := h.skip₄ (f := State.sources i) rfl
  obtain ⟨_, s6, e, h⟩ := h.skip e
  obtain ⟨m, s7, hloop, h⟩ := h.bind
  exact h.last ((batchMintLoop_sources hloop hi).trans e)

theorem burn_sources (h : Returns (burn env spender j) s () s') (hne : i ≠ j) :
    s'.sources i = s.sources i := by
  have hentry := sources_setTokenUriEntry hne
  suffices Preserves (State.sources i) (burn env spender j) from Preserves.eq h
  infer_instance

/-- A token is frozen once. -/
theorem freezeToken_sources (h : Returns (freezeToken env caller j) s () s')
    (hfrozen : s.tokenFrozen i = true) : s'.sources i = s.sources i := by
  obtain ⟨_, s1, e, h⟩ := h.skip (f := id) rfl
  obtain ⟨_, s2, e, h⟩ := h.skip e
  obtain ⟨_, _, s4, e, h⟩ := h.skip₂ e
  obtain rfl : s = s4 := e.symm
  obtain ⟨hnot, h⟩ := h.check
  have hne : i ≠ j := by
    rintro rfl
    exact hnot hfrozen
  have hset : Preserves (State.sources i)
      (update fun s => { s with tokenFrozen := Function.update s.tokenFrozen j true } : Tx Unit) :=
    .update fun s => by simp [hne]
  exact h.last rfl

/-- The URI of a frozen token cannot be set. -/
theorem setTokenUri_sources (h : Returns (setTokenUri env j uri) s () s')
    (hfrozen : s.tokenFrozen i = true) : s'.sources i = s.sources i := by
  obtain ⟨_, _, _, h⟩ := h.pass₃
  obtain ⟨hnot, h⟩ := h.check
  have hne : i ≠ j := by
    rintro rfl
    exact hnot hfrozen
  have hentry := sources_setTokenUriEntry hne
  exact h.last rfl

/-- Setting the base URI that is there already changes nothing. -/
theorem setBaseUri_sources (h : Returns (setBaseUri env baseUri) s () s')
    (hsame : s.baseUri = some baseUri) : s'.sources i = s.sources i := by
  obtain ⟨_, _, _, h⟩ := h.pass₃
  obtain ⟨_, h⟩ := h.pass
  obtain ⟨_, h⟩ := h.pass
  replace h := h.write
  have hsources : State.sources i { s with baseUri := some baseUri } = s.sources i := by
    simp only [State.sources, hsame]
  exact h.last hsources

/-- **What an invocation can do to a frozen token.** Only a new base URI, or the end of the token,
changes what its URI is resolved from. -/
theorem op_sources {op : Op} (h : Returns (op.exec env) s () s') (hfrozen : s.tokenFrozen i = true)
    (hi : i < s.nextTokenId) (hexists : (s'.owner i).isSome)
    (hbase : ∀ baseUri, op = .setBaseUri baseUri → s.baseUri = some baseUri) :
    s'.sources i = s.sources i := by
  have frame (hframe : Preserves (State.sources i) (op.exec env)) : s'.sources i = s.sources i :=
    hframe.eq h
  cases op with
  | mint =>
    obtain ⟨j, h⟩ := h.discard
    exact mint_sources h hi
  | batchMint => exact batchMint_sources h hi
  | burn spender j =>
    refine burn_sources h ?_
    rintro rfl
    obtain ⟨owner, -, -, -, htokens⟩ := burn_tokens h
    have hnone : s'.owner i = none := by
      change s'.tokens.owner i = none
      rw [htokens]
      exact update_self i none s.owner
    simp [hnone] at hexists
  | freezeToken => exact freezeToken_sources h hfrozen
  | setTokenUri => exact setTokenUri_sources h hfrozen
  | setBaseUri baseUri => exact setBaseUri_sources h (hbase baseUri rfl)
  | _ =>
    refine frame ?_
    unfold Op.exec
    infer_instance

/-! ### Runs -/

/-- The call does not set a base URI, or it sets the one there is, or it is refused. -/
def KeepsBaseUri (s : State) (call : Env × Op) : Prop :=
  ∀ baseUri s', call.2 = .setBaseUri baseUri → Returns (call.2.exec call.1) s () s' →
    s.baseUri = some baseUri

theorem step_sources (hkeeps : KeepsBaseUri s call)
    (hfrozen : s.tokenFrozen i = true) (hi : i < s.nextTokenId)
    (hexists : ((step call.1 s call.2).owner i).isSome) :
    (step call.1 s call.2).sources i = s.sources i := by
  unfold step at hexists ⊢
  split at hexists
  · rename_i u s1 hop
    exact op_sources hop hfrozen hi hexists fun baseUri hset => hkeeps baseUri s1 hset hop
  · rfl

/-- A token that still exists after a run existed before every step of it, so its sources have not
changed. -/
theorem reported_run (hs : s.Sound) (hfrozen : s.tokenFrozen i = true)
    (hexists : (s.owner i).isSome)
    (hkeeps : Run.Along (fun s call => step call.1 s call.2) KeepsBaseUri s calls)
    (hexists' : ((run s calls).owner i).isSome) : (run s calls).reported i = s.reported i := by
  obtain ⟨a, ha⟩ := Option.isSome_iff_exists.mp hexists
  have hi : i < s.nextTokenId := hs.tokens.below ha
  refine reported_congr hexists hexists' ?_
  refine (hkeeps.invariant (I := fun t => t.Sound ∧ i < t.nextTokenId ∧
    ((t.owner i).isSome → t.sources i = s.sources i)) ⟨hs, hi, fun _ => rfl⟩ ?_).2.2 hexists'
  rintro t call ⟨ht, hit, hsame⟩ hcall
  have hmove := step_moves call.1 t call.2
  refine ⟨step_sound call.1 call.2 ht, hit.trans_le (hmove.nextTokenId_le ht.tokens), ?_⟩
  intro hlater
  have hnow : (t.owner i).isSome := by
    by_contra hnone
    have hnone : t.owner i = none := by simpa using hnone
    have hgone : (step call.1 t call.2).owner i = none := hmove.spent hit hnone
    simp [hgone] at hlater
  have hthere : t.tokenFrozen i = true :=
    (congrArg Sources.frozen (hsame hnow)).trans hfrozen
  exact (step_sources hcall hthere hit hlater).trans (hsame hnow)

theorem freezeToken_frozen (h : Returns (freezeToken env caller i) s () s') :
    s'.tokenFrozen i = true ∧ (s'.owner i).isSome := by
  obtain ⟨_, h⟩ := h.pass
  obtain ⟨a, s1, hfound, h⟩ := h.bind
  obtain ⟨howner, rfl⟩ := returns_requireOwner.mp hfound
  obtain ⟨_, _, _, h⟩ := h.pass₃
  obtain ⟨_, h⟩ := h.pass
  replace h := h.write
  obtain ⟨b, -, rfl⟩ := h.zoom
  exact ⟨update_self i true s.tokenFrozen, Option.isSome_iff_exists.mpr ⟨a, howner⟩⟩

end ElcareHub.NormalNFT721

/-! ### NormalNFT1155 -/

namespace ElcareHub.NormalNFT1155

open Collection Call Function

variable {j : Nat} {caller : Address}

abbrev State.sources (i : Nat) (s : State) : Sources := ⟨s.tokenUri i, s.baseUri, s.tokenFrozen i⟩

/-- What `uri` answers. -/
def State.reported (s : State) (i : Nat) : Except (Fault Error) String := (uri i s).map Prod.fst

variable {env : Env} {s s' : State} {i : Nat} {t : Sources}

theorem reported_congr (h : s'.sources i = s.sources i) : s'.reported i = s.reported i := by
  simp only [Sources.mk.injEq] at h
  obtain ⟨htoken, hbase, -⟩ := h
  cases hb : s.baseUri <;> cases ht : s.tokenUri i <;>
    simp [State.reported, uri, bind, andThen, view, orAbort, pure, Except.map, hbase, hb, htoken, ht]

section Frames

variable {τ : Type}

instance sources_onBase (c : Call (Fault Error) Base α) : Preserves (State.sources i) (onBase c) :=
  @Preserves.zoom _ _ _ _ _ _ _ _ _ _ (fun _ => ()) ⟨fun _ => rfl⟩ fun _ _ _ => rfl

instance : Preserves (State.sources i) (onlyCreator env) := sources_onBase _

end Frames

/-! ### Calls -/

/-- The URI of another token. -/
theorem sources_setTokenUriEntry (hne : i ≠ j) (uri : String) :
    Preserves (State.sources i) (setTokenUriEntry j uri) :=
  .update fun s => by simp [State.sources, hne]

/-- A later mint leaves the URI of a token that has one alone. -/
theorem keeps_setFirstUri (hsome : t.tokenUri.isSome) (j : Nat) (uri : String) :
    Keeps (State.sources i) (· = t) (setFirstUri j uri) where
  keeps {s} u s' h hs := by
    obtain ⟨hnone, hset⟩ | ⟨-, rfl⟩ := h.when
    · have hne : i ≠ j := by
        rintro rfl
        have huri : s.tokenUri i = t.tokenUri := congrArg Sources.tokenUri hs
        simp [← huri, Option.isNone_iff_eq_none.mp hnone] at hsome
      exact ((sources_setTokenUriEntry hne uri).eq hset).trans hs
    · exact hs

theorem keeps_mintItems (hsome : t.tokenUri.isSome) (recipient : Address) (next : Nat)
    (items : List BatchItem) : Keeps (State.sources i) (· = t) (mintItems recipient next items) := by
  have hfirst := keeps_setFirstUri (i := i) hsome
  induction items generalizing next with
  | nil => exact .of_preserves (c := pure next)
  | cons item items ih =>
    unfold mintItems
    infer_instance

/-- A token is frozen once. -/
theorem freezeToken_sources (h : Returns (freezeToken env caller j) s () s')
    (hfrozen : s.tokenFrozen i = true) : s'.sources i = s.sources i := by
  obtain ⟨_, _, _, h⟩ := h.pass₃
  obtain ⟨_, _, _, h⟩ := h.pass₃
  obtain ⟨hnot, h⟩ := h.check
  have hne : i ≠ j := by
    rintro rfl
    exact hnot hfrozen
  have hset : Preserves (State.sources i)
      (update fun s => { s with tokenFrozen := Function.update s.tokenFrozen j true } : Tx Unit) :=
    .update fun s => by simp [hne]
  exact h.last rfl

/-- The URI of a frozen token cannot be set. -/
theorem setTokenUri_sources {uri : String} (h : Returns (setTokenUri env j uri) s () s')
    (hfrozen : s.tokenFrozen i = true) : s'.sources i = s.sources i := by
  obtain ⟨_, _, _, h⟩ := h.pass₃
  obtain ⟨hnot, h⟩ := h.check
  have hne : i ≠ j := by
    rintro rfl
    exact hnot hfrozen
  have hentry := sources_setTokenUriEntry hne
  exact h.last rfl

/-- Setting the base URI that is there already changes nothing. -/
theorem setBaseUri_sources (h : Returns (setBaseUri env baseUri) s () s')
    (hsame : s.baseUri = some baseUri) : s'.sources i = s.sources i := by
  obtain ⟨_, _, _, h⟩ := h.pass₃
  obtain ⟨_, h⟩ := h.pass
  obtain ⟨_, h⟩ := h.pass
  replace h := h.write
  have hsources : State.sources i { s with baseUri := some baseUri } = s.sources i := by
    simp only [State.sources, hsame]
  exact h.last hsources

/-- **What an invocation can do to a frozen token.** Only a new base URI changes what its URI is
resolved from. -/
theorem op_sources {op : Op} (h : Returns (op.exec env) s () s') (hfrozen : s.tokenFrozen i = true)
    (hsome : (s.tokenUri i).isSome)
    (hbase : ∀ baseUri, op = .setBaseUri baseUri → s.baseUri = some baseUri) :
    s'.sources i = s.sources i := by
  have frame (hframe : Keeps (State.sources i) (· = s.sources i) (op.exec env)) :
      s'.sources i = s.sources i := hframe.keeps h rfl
  have hfirst := keeps_setFirstUri (i := i) (t := s.sources i) hsome
  have hitems := keeps_mintItems (i := i) (t := s.sources i) hsome
  cases op with
  | freezeToken => exact freezeToken_sources h hfrozen
  | setTokenUri => exact setTokenUri_sources h hfrozen
  | setBaseUri baseUri => exact setBaseUri_sources h (hbase baseUri rfl)
  | _ =>
    refine frame ?_
    unfold Op.exec
    infer_instance

/-! ### Runs -/

/-- The call does not set a base URI, or it sets the one there is, or it is refused. -/
def KeepsBaseUri (s : State) (call : Env × Op) : Prop :=
  ∀ baseUri s', call.2 = .setBaseUri baseUri → Returns (call.2.exec call.1) s () s' →
    s.baseUri = some baseUri

theorem step_sources (hkeeps : KeepsBaseUri s call)
    (hfrozen : s.tokenFrozen i = true) (hsome : (s.tokenUri i).isSome) :
    (step s call).sources i = s.sources i := by
  unfold step
  split
  · rename_i u s1 hop
    exact op_sources hop hfrozen hsome fun baseUri hset => hkeeps baseUri s1 hset hop
  · rfl

theorem reported_run (hfrozen : s.tokenFrozen i = true)
    (hsome : (s.tokenUri i).isSome) (hkeeps : Run.Along step KeepsBaseUri s calls) :
    (run s calls).reported i = s.reported i := by
  refine reported_congr (hkeeps.invariant (I := fun t => t.sources i = s.sources i) rfl ?_)
  intro t call ht hcall
  have hthere : t.tokenFrozen i = true := (congrArg Sources.frozen ht).trans hfrozen
  have huri : t.tokenUri i = s.tokenUri i := congrArg Sources.tokenUri ht
  exact (step_sources hcall hthere (huri ▸ hsome)).trans ht

theorem freezeToken_frozen (h : Returns (freezeToken env caller i) s () s') :
    s'.tokenFrozen i = true ∧ (s'.tokenUri i).isSome := by
  obtain ⟨_, h⟩ := h.pass
  obtain ⟨s1, hfound, h⟩ := h.seq
  have hsome : (s.tokenUri i).isSome ∧ s = s1 := by
    simp only [returns_bind, returns_abortIf] at hfound
    obtain ⟨stored, s2, ⟨rfl, rfl⟩, hstored, rfl⟩ := hfound
    exact ⟨by simpa [Option.isSome_iff_ne_none] using hstored, rfl⟩
  obtain ⟨hsome, rfl⟩ := hsome
  obtain ⟨_, _, _, h⟩ := h.pass₃
  obtain ⟨_, _, _, h⟩ := h.pass₃
  replace h := h.write
  obtain ⟨b, -, rfl⟩ := h.zoom
  exact ⟨update_self i true s.tokenFrozen, hsome⟩

end ElcareHub.NormalNFT1155

/-! ### Both contracts -/

namespace ElcareHub.Collection

open Call

/-- **Frozen tokens.** Once a token has been frozen, and in every run in which no call changes the base
URI, the URI reported for it is the one reported when it was frozen; in NormalNFT721 as long as the token
exists, in NormalNFT1155 for good. -/
theorem frozen_uri_kept (env : Env) (caller : Address) (i : Nat) :
    (∀ before s', Returns (NormalNFT721.freezeToken env caller i) (NormalNFT721.run .fresh before) () s' →
      ∀ later, Run.Along (fun s call => NormalNFT721.step call.1 s call.2) NormalNFT721.KeepsBaseUri
          s' later →
        ((NormalNFT721.run s' later).owner i).isSome →
        (NormalNFT721.run s' later).reported i = s'.reported i) ∧
    ∀ before s', Returns (NormalNFT1155.freezeToken env caller i) (NormalNFT1155.run .fresh before) ()
        s' →
      ∀ later, Run.Along NormalNFT1155.step NormalNFT1155.KeepsBaseUri s' later →
        (NormalNFT1155.run s' later).reported i = s'.reported i := by
  constructor
  · intro before s' hfreeze later hkeeps hexists
    obtain ⟨hfrozen, howned⟩ := NormalNFT721.freezeToken_frozen hfreeze
    have hsound : s'.Sound :=
      NormalNFT721.returns_sound (.freezeToken caller i) hfreeze (NormalNFT721.sound_run before)
    exact NormalNFT721.reported_run hsound hfrozen howned hkeeps hexists
  · intro before s' hfreeze later hkeeps
    obtain ⟨hfrozen, hsome⟩ := NormalNFT1155.freezeToken_frozen hfreeze
    exact NormalNFT1155.reported_run hfrozen hsome hkeeps

/-- A collection with one token, in each contract. -/
def oneToken721 : List (Env × NormalNFT721.Op) :=
  [(.signedBy ⟨1⟩ 100, .initializeCollection ⟨1⟩ "Collection" "SYM" 10 500 ⟨1⟩),
    (.signedBy ⟨1⟩ 100, .mint ⟨2⟩ "ipfs://one")]

def oneToken1155 : List (Env × NormalNFT1155.Op) :=
  [(.signedBy ⟨1⟩ 100, .initializeCollection ⟨1⟩ "Collection" 500 ⟨1⟩),
    (.signedBy ⟨1⟩ 100, .mintNew ⟨2⟩ 5 "ipfs://one")]

/-- The creator freezes the token and still tries to give it another URI. -/
theorem frozen_uri_kept_oneToken : ∃ s', Returns (NormalNFT721.freezeToken (.signedBy ⟨1⟩ 100) ⟨1⟩ 0)
        (NormalNFT721.run .fresh oneToken721) () s' ∧
      (NormalNFT721.run s' [(.signedBy ⟨1⟩ 100, .setTokenUri 0 "ipfs://two"),
        (.signedBy ⟨1⟩ 100, .freezeMetadata)]).reported 0 = s'.reported 0 := by
  obtain ⟨u, s', h, hexists⟩ := exists_returns (c := NormalNFT721.freezeToken (.signedBy ⟨1⟩ 100) ⟨1⟩ 0)
    (s := NormalNFT721.run .fresh oneToken721)
    (p := fun _ s' => ((NormalNFT721.run s' [(.signedBy ⟨1⟩ 100, .setTokenUri 0 "ipfs://two"),
        (.signedBy ⟨1⟩ 100, .freezeMetadata)]).owner 0).isSome) (by decide +kernel)
  refine ⟨s', h, (frozen_uri_kept (.signedBy ⟨1⟩ 100) ⟨1⟩ 0).1 oneToken721 s' h _ ?_ hexists⟩
  refine ⟨?_, ?_, trivial⟩
  · rintro _ _ ⟨⟩
  · rintro _ _ ⟨⟩

/-- In both contracts the creator can change the URI reported for a frozen token, with a new base URI. -/
theorem frozen_uri_changes : (¬ ∀ env caller i before s',
      Returns (NormalNFT721.freezeToken env caller i) (NormalNFT721.run .fresh before) () s' →
      ∀ later, ((NormalNFT721.run s' later).owner i).isSome →
        (NormalNFT721.run s' later).reported i = s'.reported i) ∧ ¬ ∀ env caller i before s',
      Returns (NormalNFT1155.freezeToken env caller i) (NormalNFT1155.run .fresh before) () s' →
      ∀ later, (NormalNFT1155.run s' later).reported i = s'.reported i := by
  constructor
  · intro hkept
    obtain ⟨u, s', h, hlater⟩ := exists_returns
      (c := NormalNFT721.freezeToken (.signedBy ⟨1⟩ 100) ⟨1⟩ 0)
      (s := NormalNFT721.run .fresh oneToken721)
      (p := fun _ s' =>
        let later := NormalNFT721.run s' [(.signedBy ⟨1⟩ 100, .setBaseUri "ipfs://new/")]
        (later.owner 0).isSome && later.reported 0 != s'.reported 0) (by decide +kernel)
    obtain ⟨hexists, hne⟩ := Bool.and_eq_true_iff.mp hlater
    exact bne_iff_ne.mp hne (hkept _ _ _ _ s' h _ hexists)
  · intro hkept
    obtain ⟨u, s', h, hlater⟩ := exists_returns
      (c := NormalNFT1155.freezeToken (.signedBy ⟨1⟩ 100) ⟨1⟩ 0)
      (s := NormalNFT1155.run .fresh oneToken1155)
      (p := fun _ s' =>
        (NormalNFT1155.run s' [(.signedBy ⟨1⟩ 100, .setBaseUri "ipfs://new/")]).reported 0 !=
          s'.reported 0) (by decide +kernel)
    exact bne_iff_ne.mp hlater (hkept _ _ _ _ s' h _)

end ElcareHub.Collection
