/-
Announced clipboard contents are settled once, whatever commands a worker applies and however its target answers.
-/
import Jwm.Remote.ClipboardWorker
import Mathlib.Data.List.Induction

namespace Jwm.Remote

open List

/-! ## Requests -/

namespace RemoteServe

def announces : RemoteServe → Option Nat
  | .announce token _ => some token
  | _ => none

def fulfils : RemoteServe → Option Nat
  | .fulfilPng token _ | .fulfilFiles token _ => some token
  | _ => none

def abandons : RemoteServe → Option Nat
  | .abandon token => some token
  | _ => none

end RemoteServe

/-- Requests served so far, oldest first, with the answers. -/
abbrev Requests := List (RemoteServe × Bool)

namespace Requests

def announced (log : Requests) : List Nat := log.filterMap (·.1.announces)

def Offered (log : Requests) (token : Nat) : Prop := ∃ c ∈ log, c.1.fulfils = some token ∨ c.1.abandons = some token

/-- A request is in order after those of `before`: an announcement is newer than all before it, which
have all been offered; a fulfil or an abandon names the latest announcement, which was not fulfilled
before, or not with success. -/
structure InOrder (before : Requests) (request : RemoteServe) : Prop where
  announce : ∀ token, request.announces = some token → ∀ t ∈ before.announced, t < token ∧ before.Offered t
  fulfil : ∀ token, request.fulfils = some token →
    before.announced.getLast? = some token ∧ ∀ c ∈ before, c.1.fulfils ≠ some token
  abandon : ∀ token, request.abandons = some token →
    before.announced.getLast? = some token ∧ ∀ c ∈ before, c.1.fulfils = some token → c.2 = false

def Settled (log : Requests) : Prop := ∀ before call after, log = before ++ call :: after → InOrder before call.1

variable {log : Requests} {call : RemoteServe × Bool} {token : Nat}

theorem settled_nil : Settled [] := fun before call after h => by
  cases before <;> cases h

theorem Settled.append (h : Settled log) (hcall : InOrder log call.1) : Settled (log ++ [call]) := by
  intro before c after heq
  rcases eq_nil_or_concat after with rfl | ⟨after, last, rfl⟩
  · obtain ⟨rfl, hc⟩ := append_inj' heq rfl
    obtain rfl := (cons.inj hc).1
    exact hcall
  · rw [concat_eq_append, ← cons_append, ← append_assoc] at heq
    exact h before c after (append_inj' heq rfl).1

theorem announced_append (log : Requests) (call : RemoteServe × Bool) :
    announced (log ++ [call]) = log.announced ++ call.1.announces.toList := by
  unfold announced
  rw [filterMap_append]
  cases h : call.1.announces <;> simp [h]

theorem announced_append_of_none (log : Requests) (h : call.1.announces = none) :
    announced (log ++ [call]) = log.announced := by
  rw [announced_append, h]
  exact append_nil _

theorem Offered.append (h : log.Offered token) (call : RemoteServe × Bool) : Offered (log ++ [call]) token := by
  obtain ⟨c, hc, h⟩ := h
  exact ⟨c, mem_append_left _ hc, h⟩

theorem offered_last (h : call.1.fulfils = some token ∨ call.1.abandons = some token) : Offered (log ++ [call]) token :=
  ⟨call, mem_append_right _ (mem_singleton_self _), h⟩

theorem announced_mono {before after : Requests} (h : token ∈ announced before) :
    token ∈ announced (before ++ after) := by
  unfold announced at *
  rw [filterMap_append]
  exact mem_append_left _ h

theorem Settled.named_mem {c : RemoteServe × Bool} (h : Settled log) (hc : c ∈ log)
    (hn : c.1.fulfils = some token ∨ c.1.abandons = some token) : token ∈ log.announced := by
  obtain ⟨before, after, rfl⟩ := append_of_mem hc
  have horder := h before c after rfl
  refine announced_mono (mem_of_getLast? ?_)
  rcases hn with hf | ha
  · exact (horder.fulfil token hf).1
  · exact (horder.abandon token ha).1

theorem inOrder_text (log : Requests) (value : List Byte) : InOrder log (.text value) :=
  ⟨nofun, nofun, nofun⟩

end Requests

/-! ## The invariant -/

section Tokens

variable {R S : Type}

def Worker.receivingToken (w : Worker R S) : Option Nat := w.receiving.map (·.token)

/-- The requests are in order, and the pending token is the one announced token that may still be
unsettled. While the out queue is open it is the token of the transfer being received. -/
structure TokensKept (w : Worker R S) : Prop where
  settled : Requests.Settled w.requests
  fresh : ∀ t ∈ Requests.announced w.requests, t < w.nextToken
  offered : ∀ t ∈ Requests.announced w.requests, Requests.Offered w.requests t ∨ w.pendingToken = some t
  pending : ∀ t, w.pendingToken = some t → (Requests.announced w.requests).getLast? = some t ∧
    ∀ c ∈ w.requests, c.1.fulfils = some t → c.2 = false
  receiving : ∀ t, w.receivingToken = some t → w.pendingToken = some t ∧ ∀ c ∈ w.requests, c.1.fulfils ≠ some t
  idle : w.out.closed = false → w.receivingToken = none → w.pendingToken = none

/-- `w'` has the tokens of `w`, with its out queue as it was or closed in between. -/
structure SameTokens (w w' : Worker R S) : Prop where
  requests : w'.requests = w.requests
  nextToken : w'.nextToken = w.nextToken
  receiving : w'.receivingToken = w.receivingToken
  pendingToken : w'.pendingToken = w.pendingToken
  closed : w.out.closed = true → w'.out.closed = true

variable {w w' w'' : Worker R S} {env : Surroundings R S}

theorem SameTokens.refl (w : Worker R S) : SameTokens w w := ⟨rfl, rfl, rfl, rfl, id⟩

theorem SameTokens.trans (h : SameTokens w w') (h' : SameTokens w' w'') : SameTokens w w'' :=
  ⟨h'.requests.trans h.requests, h'.nextToken.trans h.nextToken, h'.receiving.trans h.receiving,
    h'.pendingToken.trans h.pendingToken, fun hc => h'.closed (h.closed hc)⟩

theorem TokensKept.same (h : TokensKept w) (hs : SameTokens w w') : TokensKept w' := by
  refine ⟨?_, ?_, ?_, ?_, ?_, ?_⟩
  · rw [hs.requests]
    exact h.settled
  · rw [hs.requests, hs.nextToken]
    exact h.fresh
  · rw [hs.requests, hs.pendingToken]
    exact h.offered
  · rw [hs.requests, hs.pendingToken]
    exact h.pending
  · rw [hs.requests, hs.pendingToken, hs.receiving]
    exact h.receiving
  · rw [hs.receiving, hs.pendingToken]
    intro hopen
    refine h.idle ?_
    by_contra hc
    rw [hs.closed (by simpa using hc)] at hopen
    cases hopen

/-! ## Sending -/

theorem SameTokens.queue (w : Worker R S) (record : Outgoing) : SameTokens w (w.queue record) :=
  ⟨rfl, rfl, rfl, rfl, fun h => closed_of_sendOutgoing h record⟩

open Worker

theorem SameTokens.abortSending (w : Worker R S) : SameTokens w w.abortSending := by
  unfold Worker.abortSending
  split
  · exact ⟨rfl, rfl, rfl, rfl, fun h => closed_of_sendOutgoing h _⟩
  · exact .refl w

theorem SameTokens.cancelSending (w : Worker R S) : SameTokens w w.cancelSending := by
  unfold Worker.cancelSending
  split
  · dsimp only
    split
    · exact ⟨rfl, rfl, rfl, rfl, fun h => closed_of_sendOutgoing h _⟩
    · exact ⟨rfl, rfl, rfl, rfl, id⟩
  · exact .refl w

theorem SameTokens.startSending (w : Worker R S) (kind : TransferKind) (source : Source R) (length entries items : Nat) :
    SameTokens w (w.startSending kind source length entries items) :=
  ⟨rfl, rfl, rfl, rfl, fun h => closed_of_sendOutgoing h _⟩

theorem SameTokens.readChunk (env : Surroundings R S) (w : Worker R S) (sending : Sending R) (room : Nat) :
    SameTokens w (w.readChunk env sending room).1 := by
  unfold Worker.readChunk
  split
  · exact .refl w
  · exact ⟨rfl, rfl, rfl, rfl, id⟩

theorem SameTokens.pumpLoop (env : Surroundings R S) : ∀ (fuel : Nat) (w : Worker R S), SameTokens w (w.pumpLoop env fuel)
  | 0, w => .refl w
  | fuel + 1, w => by
    unfold Worker.pumpLoop
    split
    · exact .refl w
    · rename_i sending _
      split
      · dsimp only
        split
        · exact ⟨rfl, rfl, rfl, rfl, fun h => closed_of_sendOutgoing h _⟩
        · have hread := SameTokens.readChunk env w sending
            (min (min (transferWindowBytes - (w.sentTotal - w.ackedTotal)) (sending.length - sending.sent)) transferChunkBytes)
          generalize w.readChunk env sending _ = chunk at hread ⊢
          obtain ⟨w₁, bytes | ⟨bytes, source⟩⟩ := chunk
          · exact hread.trans (.abortSending w₁)
          · dsimp only
            split
            · exact hread.trans (.abortSending w₁)
            · have hclosed : w₁.out.closed = true → (sendOutgoing w₁.out (.transfer (.data sending.id bytes))).1.closed = true :=
                fun h => closed_of_sendOutgoing h _
              generalize sendOutgoing w₁.out _ = sent at hclosed ⊢
              obtain ⟨out, ok⟩ := sent
              cases ok with
              | true =>
                refine hread.trans (.trans ?_ (SameTokens.pumpLoop env fuel _))
                exact ⟨rfl, rfl, rfl, rfl, hclosed⟩
              | false =>
                refine hread.trans ?_
                exact ⟨rfl, rfl, rfl, rfl, hclosed⟩
      · exact .refl w

theorem SameTokens.pump (env : Surroundings R S) (w : Worker R S) : SameTokens w (w.pump env) := by
  unfold Worker.pump
  split
  · exact .refl w
  · exact .pumpLoop env _ w

/-! ## Serving -/

theorem serve_cases (env : Surroundings R S) (w : Worker R S) (request : RemoteServe) :
    (w.out.closed = true ∧ w.serve env request = (w, false)) ∨
    (w.out.closed = false ∧ request.retainedBytes = none ∧ w.serve env request = ({ w with out := w.out.close }, false)) ∨
    (w.out.closed = false ∧ w.serve env request =
      ({ w with call := w.call + 1, requests := w.requests ++ [(request, true)] }, true)) ∨
    (w.out.closed = false ∧ w.serve env request =
      ({ w with call := w.call + 1, requests := w.requests ++ [(request, false)], out := w.out.close }, false)) := by
  unfold serve
  split
  · exact .inl ⟨‹_›, rfl⟩
  · rename_i hopen
    have hopen : w.out.closed = false := by simpa using hopen
    split
    · exact .inr (.inl ⟨hopen, by simpa using ‹request.retainedBytes.isNone = true›, rfl⟩)
    · right
      right
      cases env.serve w.call request with
      | true => exact .inl ⟨hopen, rfl⟩
      | false => exact .inr ⟨hopen, rfl⟩

/-- `w'` is `w` after the transfer being received was taken out, with the token still pending. -/
structure Detached (w w' : Worker R S) : Prop where
  requests : w'.requests = w.requests
  nextToken : w'.nextToken = w.nextToken
  receiving : w'.receivingToken = none
  pendingToken : w'.pendingToken = w.pendingToken
  closed : w.out.closed = true → w'.out.closed = true

section

variable (h : TokensKept w)
include h

theorem TokensKept.detached (hd : Detached w w') (hclosed : w'.out.closed = true) : TokensKept w' := by
  refine ⟨?_, ?_, ?_, ?_, ?_, ?_⟩
  · rw [hd.requests]
    exact h.settled
  · rw [hd.requests, hd.nextToken]
    exact h.fresh
  · rw [hd.requests, hd.pendingToken]
    exact h.offered
  · rw [hd.requests, hd.pendingToken]
    exact h.pending
  · rw [hd.receiving]
    exact nofun
  · rw [hclosed]
    exact nofun

open Requests

/-- A fulfil or an abandon settles the token of the transfer that was taken out. -/
theorem TokensKept.settle {request : RemoteServe} {token : Nat} (ht : w.receivingToken = some token) (hd : Detached w w')
    (hrequest : request.fulfils = some token ∧ request.abandons = none ∨ request.fulfils = none ∧ request.abandons = some token)
    (hannounces : request.announces = none) :
    TokensKept (match w'.serve env request with
      | (w, true) => { w with pendingToken := none }
      | (w, false) => w) := by
  obtain ⟨hpending, hnever⟩ := h.receiving token ht
  obtain ⟨hlast, hrejected⟩ := h.pending token hpending
  have horder : Requests.InOrder w'.requests request := by
    rw [hd.requests]
    refine ⟨fun t ha => ?_, fun t hf => ?_, fun t ha => ?_⟩
    · rw [hannounces] at ha
      cases ha
    · rcases hrequest with ⟨hfulfils, -⟩ | ⟨hfulfils, -⟩
      · rw [hfulfils] at hf
        obtain rfl := Option.some.inj hf
        exact ⟨hlast, hnever⟩
      · rw [hfulfils] at hf
        cases hf
    · rcases hrequest with ⟨-, habandons⟩ | ⟨-, habandons⟩
      · rw [habandons] at ha
        cases ha
      · rw [habandons] at ha
        obtain rfl := Option.some.inj ha
        exact ⟨hlast, hrejected⟩
  have hoffered : ∀ answer, Requests.Offered (w'.requests ++ [(request, answer)]) token := fun answer =>
    offered_last (hrequest.imp And.left And.right)
  have hannounced : ∀ answer, announced (w'.requests ++ [(request, answer)]) = announced w.requests :=
    fun answer => by rw [announced_append_of_none _ hannounces, hd.requests]
  have hall : ∀ answer, ∀ t ∈ announced (w'.requests ++ [(request, answer)]),
      Requests.Offered (w'.requests ++ [(request, answer)]) t := by
    intro answer t hmem
    rw [hannounced] at hmem
    rcases h.offered t hmem with hoff | hp
    · rw [hd.requests]
      exact hoff.append _
    · rw [hpending] at hp
      obtain rfl := Option.some.inj hp
      exact hoffered answer
  rcases serve_cases env w' request with ⟨hclosed, hserve⟩ | ⟨_, _, hserve⟩ | ⟨_, hserve⟩ | ⟨_, hserve⟩
  · rw [hserve]
    exact h.detached hd hclosed
  · rw [hserve]
    exact h.detached ⟨hd.requests, hd.nextToken, hd.receiving, hd.pendingToken, fun _ => rfl⟩ rfl
  · rw [hserve]
    refine ⟨?_, ?_, fun t ht => .inl (hall true t ht), nofun, ?_, fun _ _ => rfl⟩
    · exact (hd.requests ▸ h.settled).append horder
    · rw [hannounced, hd.nextToken]
      exact h.fresh
    · show ∀ t, w'.receivingToken = some t → _
      rw [hd.receiving]
      exact nofun
  · rw [hserve]
    refine ⟨?_, ?_, fun t ht => .inl (hall false t ht), fun t hp => ?_, ?_, nofun⟩
    · exact (hd.requests ▸ h.settled).append horder
    · rw [hannounced, hd.nextToken]
      exact h.fresh
    · have hp : w.pendingToken = some t := hd.pendingToken ▸ hp
      obtain ⟨hlast, hrejected⟩ := h.pending t hp
      refine ⟨(hannounced false).symm ▸ hlast, fun c hc hf => ?_⟩
      rcases mem_append.1 hc with hc | hc
      · exact hrejected c (hd.requests ▸ hc) hf
      · obtain rfl := mem_singleton.1 hc
        rfl
    · show ∀ t, w'.receivingToken = some t → _
      rw [hd.receiving]
      exact nofun

theorem TokensKept.dropReceiving (env : Surroundings R S) (refuse : Bool) :
    TokensKept (w.dropReceiving env refuse) ∧ (w.dropReceiving env refuse).receivingToken = none := by
  unfold Worker.dropReceiving
  split
  · rename_i hnone
    exact ⟨h, by rw [receivingToken, hnone]; rfl⟩
  · rename_i receiving hsome
    have ht : w.receivingToken = some receiving.token := by rw [receivingToken, hsome]; rfl
    dsimp only
    -- the transfer is taken out, after a refusal or not
    generalize hw₁ : ({ (if refuse = true then w.queueOp (.refuse receiving.id) else w) with receiving := none } : Worker R S) = w₁
    have hd : Detached w w₁ := by
      subst hw₁
      cases refuse with
      | true => exact ⟨rfl, rfl, rfl, rfl, fun hc => closed_of_sendOutgoing hc _⟩
      | false => exact ⟨rfl, rfl, rfl, rfl, id⟩
    refine ⟨h.settle ht hd (.inr ⟨rfl, rfl⟩) rfl, ?_⟩
    rcases serve_cases env w₁ (.abandon receiving.token) with ⟨_, hserve⟩ | ⟨_, _, hserve⟩ | ⟨_, hserve⟩ | ⟨_, hserve⟩ <;>
    · rw [hserve]
      exact hd.receiving

theorem TokensKept.serve_text (value : List Byte) : TokensKept (w.serve env (.text value)).1 := by
  have hkeep : ∀ answer (w' : Worker R S), w'.requests = w.requests ++ [(.text value, answer)] → w'.nextToken = w.nextToken →
      w'.receivingToken = w.receivingToken → w'.pendingToken = w.pendingToken →
      (w'.out.closed = false → w.out.closed = false) → TokensKept w' := by
    intro answer w' hreq hnext hrec hpend hopen
    have hann : announced w'.requests = announced w.requests := by
      rw [hreq]
      exact announced_append_of_none _ rfl
    have hfulfils : ∀ {t}, ∀ c ∈ w'.requests, c.1.fulfils = some t → c ∈ w.requests := by
      intro t c hc hf
      rw [hreq] at hc
      rcases mem_append.1 hc with hc | hc
      · exact hc
      · obtain rfl := mem_singleton.1 hc
        cases hf
    refine ⟨?_, ?_, fun t ht => ?_, fun t hp => ?_, fun t hr => ?_, fun ho hr => ?_⟩
    · rw [hreq]
      exact h.settled.append (inOrder_text _ value)
    · rw [hann, hnext]
      exact h.fresh
    · rw [hann] at ht
      rw [hreq, hpend]
      exact (h.offered t ht).imp_left fun hoff => hoff.append _
    · obtain ⟨hlast, hrejected⟩ := h.pending t (hpend ▸ hp)
      exact ⟨hann.symm ▸ hlast, fun c hc hf => hrejected c (hfulfils c hc hf) hf⟩
    · obtain ⟨hp, hnever⟩ := h.receiving t (hrec ▸ hr)
      exact ⟨hpend.trans hp, fun c hc hf => hnever c (hfulfils c hc hf) hf⟩
    · rw [hpend]
      exact h.idle (hopen ho) (hrec ▸ hr)
  rcases serve_cases env w (.text value) with ⟨_, hserve⟩ | ⟨_, _, hserve⟩ | ⟨_, hserve⟩ | ⟨_, hserve⟩
  · rw [hserve]
    exact h
  · rw [hserve]
    exact h.same ⟨rfl, rfl, rfl, rfl, fun _ => rfl⟩
  · rw [hserve]
    exact hkeep true _ rfl rfl rfl rfl id
  · rw [hserve]
    exact hkeep false _ rfl rfl rfl rfl nofun

theorem TokensKept.announce (hopen : w.out.closed = false) (hidle : w.receivingToken = none) (receiving : Receiving S)
    (ht : receiving.token = w.nextToken) (kind : PendingKind) :
    TokensKept (serve env { w with
      nextToken := w.nextToken + 1, receiving := some receiving, pendingToken := some w.nextToken }
        (.announce w.nextToken kind)).1 := by
  have hnone := h.idle hopen hidle
  have hkeep : ∀ answer (w' : Worker R S), w'.requests = w.requests ++ [(.announce w.nextToken kind, answer)] →
      w'.nextToken = w.nextToken + 1 → w'.receivingToken = some w.nextToken → w'.pendingToken = some w.nextToken →
      TokensKept w' := by
    intro answer w' hreq hnext hrec hpend
    have hann : announced w'.requests = announced w.requests ++ [w.nextToken] := by
      rw [hreq]
      exact announced_append _ _
    -- a fresh token was never fulfilled
    have hnever : ∀ c ∈ w'.requests, c.1.fulfils ≠ some w.nextToken := by
      intro c hc hf
      rw [hreq] at hc
      rcases mem_append.1 hc with hc | hc
      · exact Nat.lt_irrefl _ (h.fresh _ (h.settled.named_mem hc (.inl hf)))
      · obtain rfl := mem_singleton.1 hc
        cases hf
    refine ⟨?_, fun t ht => ?_, fun t ht => ?_, fun t hp => ?_, fun t hr => ?_, fun _ hr => ?_⟩
    · rw [hreq]
      refine h.settled.append ⟨fun t ha t' ht' => ?_, nofun, nofun⟩
      obtain rfl := Option.some.inj ha
      refine ⟨h.fresh t' ht', (h.offered t' ht').resolve_right ?_⟩
      rw [hnone]
      exact nofun
    · rw [hann] at ht
      rw [hnext]
      rcases mem_append.1 ht with ht | ht
      · exact Nat.lt_succ_of_lt (h.fresh t ht)
      · obtain rfl := mem_singleton.1 ht
        exact Nat.lt_succ_self _
    · rw [hann] at ht
      rcases mem_append.1 ht with ht | ht
      · rcases h.offered t ht with hoff | hp
        · rw [hreq]
          exact .inl (hoff.append _)
        · rw [hnone] at hp
          cases hp
      · obtain rfl := mem_singleton.1 ht
        exact .inr hpend
    · rw [hpend] at hp
      obtain rfl := Option.some.inj hp
      refine ⟨?_, fun c hc hf => absurd hf (hnever c hc)⟩
      rw [hann]
      exact getLast?_concat
    · rw [hrec] at hr
      obtain rfl := Option.some.inj hr
      exact ⟨hpend, hnever⟩
    · rw [hrec] at hr
      cases hr
  have htoken : (some receiving).map (·.token) = some w.nextToken := by rw [Option.map_some, ht]
  rcases serve_cases env ({ w with
      nextToken := w.nextToken + 1, receiving := some receiving, pendingToken := some w.nextToken } : Worker R S)
      (.announce w.nextToken kind) with ⟨hclosed, _⟩ | ⟨_, hnone, _⟩ | ⟨_, hserve⟩ | ⟨_, hserve⟩
  · rw [show w.out.closed = true from hclosed] at hopen
    cases hopen
  · cases hnone
  · rw [hserve]
    exact hkeep true _ rfl rfl htoken rfl
  · rw [hserve]
    exact hkeep false _ rfl rfl htoken rfl

end

/-! ## Commands -/

theorem SameTokens.accept (env : Surroundings R S) (w : Worker R S) (kind : TransferKind) (length entries : Nat) :
    SameTokens w (w.accept env kind length entries).1 ∧ (w.accept env kind length entries).1.out = w.out := by
  unfold Worker.accept
  split
  · exact ⟨.refl w, rfl⟩
  · cases kind with
    | image =>
      dsimp only
      split
      · exact ⟨.refl w, rfl⟩
      · split <;> exact ⟨.refl w, rfl⟩
    | files =>
      dsimp only
      split
      · exact ⟨.refl w, rfl⟩
      split
      · exact ⟨.refl w, rfl⟩
      split
      · exact ⟨.refl w, rfl⟩
      -- from here on only the number of calls changes
      split
      · exact ⟨⟨rfl, rfl, rfl, rfl, id⟩, rfl⟩
      · split
        · exact ⟨⟨rfl, rfl, rfl, rfl, id⟩, rfl⟩
        · split <;> exact ⟨⟨rfl, rfl, rfl, rfl, id⟩, rfl⟩

theorem receiving_of_filter {w : Worker R S} {id : Nat} {receiving : Receiving S}
    (h : w.receiving.filter (·.id = id) = some receiving) : w.receiving = some receiving :=
  (Option.filter_eq_some_iff.1 h).1

theorem SameTokens.receiveChunk (env : Surroundings R S) (w : Worker R S) (id : Nat) (bytes : List Byte) :
    SameTokens w (w.receiveChunk env id bytes).1 := by
  unfold Worker.receiveChunk
  split
  · exact .refl w
  · rename_i receiving hfilter
    have hreceiving := receiving_of_filter hfilter
    have htoken : w.receivingToken = some receiving.token := by rw [receivingToken, hreceiving]; rfl
    split
    · exact .refl w
    · split
      · exact ⟨rfl, rfl, htoken.symm, rfl, fun hc => hc⟩
      · dsimp only
        split
        · exact ⟨rfl, rfl, rfl, rfl, fun hc => hc⟩
        · exact ⟨rfl, rfl, htoken.symm, rfl, fun hc => hc⟩

theorem TokensKept.onBegin (h : TokensKept w) (id : Nat) (kind : TransferKind) (length entries : Nat) :
    TokensKept (w.onBegin env id kind length entries) := by
  obtain ⟨hdrop, hnone⟩ := (h.same (.cancelSending w)).dropReceiving env false
  unfold Worker.onBegin
  dsimp only
  generalize (w.cancelSending).dropReceiving env false = w₁ at hdrop hnone ⊢
  split
  · exact hdrop
  · rename_i hopen
    have hopen : w₁.out.closed = false := by simpa using hopen
    obtain ⟨hsame, hout⟩ := SameTokens.accept env { w₁ with lastReceived := none } kind length entries
    generalize accept env { w₁ with lastReceived := none } kind length entries = accepted at hsame hout ⊢
    obtain ⟨w₂, result⟩ := accepted
    have hforget : SameTokens w₁ { w₁ with lastReceived := none } := ⟨rfl, rfl, rfl, rfl, fun hc => hc⟩
    have hkept : TokensKept w₂ := hdrop.same (hforget.trans hsame)
    cases result with
    | error error => exact hkept.same (.queue w₂ _)
    | ok sink =>
      refine hkept.announce ?_ (hsame.receiving.trans hnone) _ rfl _
      rw [show w₂.out = w₁.out from hout]
      exact hopen

theorem TokensKept.onData (h : TokensKept w) (id : Nat) (bytes : List Byte) : TokensKept (w.onData env id bytes) := by
  have hsame := SameTokens.receiveChunk env w id bytes
  unfold Worker.onData
  generalize w.receiveChunk env id bytes = received at hsame ⊢
  obtain ⟨w₁, result⟩ := received
  have hkept : TokensKept (queueOp { w₁ with
      inFlight := w₁.inFlight - bytes.length, consumedTotal := w₁.consumedTotal + bytes.length }
        (.ack id (w₁.consumedTotal + bytes.length))) :=
    (h.same hsame).same ⟨rfl, rfl, rfl, rfl, fun hc => closed_of_sendOutgoing hc _⟩
  cases result with
  | ok _ => exact hkept
  | error error => exact (hkept.dropReceiving env true).1

theorem usable_spec (env : Surroundings R S) (w : Worker R S) (receiving : Receiving S) :
    (w.usable env receiving).1.requests = w.requests ∧ (w.usable env receiving).1.nextToken = w.nextToken ∧
    (w.usable env receiving).1.receiving = w.receiving ∧ (w.usable env receiving).1.pendingToken = w.pendingToken ∧
    (w.usable env receiving).1.out = w.out ∧ ∀ request fingerprint, (w.usable env receiving).2 = .ok (request, fingerprint) →
      request.fulfils = some receiving.token ∧ request.abandons = none ∧ request.announces = none := by
  unfold usable
  dsimp only
  split
  · split
    · split
      · refine ⟨rfl, rfl, rfl, rfl, rfl, fun request fingerprint h => ?_⟩
        obtain ⟨rfl, -⟩ := Prod.mk.inj (Except.ok.inj h)
        exact ⟨rfl, rfl, rfl⟩
      · exact ⟨rfl, rfl, rfl, rfl, rfl, nofun⟩
    · exact ⟨rfl, rfl, rfl, rfl, rfl, nofun⟩
  · split
    · split
      · split
        · exact ⟨rfl, rfl, rfl, rfl, rfl, nofun⟩
        · refine ⟨rfl, rfl, rfl, rfl, rfl, fun request fingerprint h => ?_⟩
          obtain ⟨rfl, -⟩ := Prod.mk.inj (Except.ok.inj h)
          exact ⟨rfl, rfl, rfl⟩
      · exact ⟨rfl, rfl, rfl, rfl, rfl, nofun⟩
    · exact ⟨rfl, rfl, rfl, rfl, rfl, nofun⟩

theorem TokensKept.finishReceiving (h : TokensKept w) (id : Nat) : TokensKept (w.finishReceiving env id) := by
  unfold Worker.finishReceiving
  split
  · exact h
  · rename_i receiving hfilter
    have hreceiving := receiving_of_filter hfilter
    have ht : w.receivingToken = some receiving.token := by rw [receivingToken, hreceiving]; rfl
    obtain ⟨hreq, hnext, hrec, hpend, hout, hok⟩ := usable_spec env { w with receiving := none } receiving
    dsimp only
    generalize usable env { w with receiving := none } receiving = used at hreq hnext hrec hpend hout hok ⊢
    obtain ⟨w₁, result⟩ := used
    have hd : Detached w w₁ := by
      refine ⟨hreq, hnext, ?_, hpend, fun hc => ?_⟩
      · rw [receivingToken, show w₁.receiving = none from hrec]
        rfl
      · rw [show w₁.out = w.out from hout]
        exact hc
    cases result with
    | error error => exact h.settle ht hd (.inr ⟨rfl, rfl⟩) rfl
    | ok served =>
      obtain ⟨request, fingerprint⟩ := served
      obtain ⟨hfulfils, habandons, hannounces⟩ := hok request fingerprint rfl
      exact h.settle ht ⟨hd.requests, hd.nextToken, hd.receiving, hd.pendingToken, hd.closed⟩ (.inl ⟨hfulfils, habandons⟩)
        hannounces

theorem SameTokens.onAck (w : Worker R S) (id consumed : Nat) : SameTokens w (w.onAck id consumed) := by
  unfold Worker.onAck
  dsimp only
  split
  · exact ⟨rfl, rfl, rfl, rfl, fun hc => hc⟩
  · split <;> exact ⟨rfl, rfl, rfl, rfl, fun hc => hc⟩

theorem TokensKept.onPeer (h : TokensKept w) (op : TransferOp) : TokensKept (w.onPeer env op) := by
  unfold Worker.onPeer
  split
  · exact h
  · cases op with
    | begin id kind length entries items => exact h.onBegin id kind length entries
    | data id bytes => exact h.onData id bytes
    | finish id => exact h.finishReceiving id
    | cancel id =>
      dsimp only
      split
      · exact (h.dropReceiving env false).1
      · exact h
    | ack id consumed => exact h.same (.onAck w id consumed)
    | refuse id =>
      dsimp only
      split
      · exact h.same ⟨rfl, rfl, rfl, rfl, fun hc => hc⟩
      · exact h

theorem TokensKept.shareLocal (h : TokensKept w) (copied : CopiedClipboard) : TokensKept (w.shareLocal env copied) := by
  obtain ⟨hdrop, -⟩ := (h.same (.cancelSending w)).dropReceiving env true
  rcases shareLocal_cases env w copied with heq | heq | ⟨value, heq⟩ | ⟨image, -, -, heq⟩ | ⟨paths, heq⟩
  · rw [heq]
    exact h
  · rw [heq]
    exact hdrop
  · rw [heq]
    exact hdrop.same (.queue _ _)
  · rw [heq]
    exact hdrop.same (.startSending ..)
  · rw [heq]
    unfold shareFiles
    dsimp only
    split
    · refine hdrop.same (.trans ?_ (.startSending ..))
      exact ⟨rfl, rfl, rfl, rfl, fun hc => hc⟩
    · exact hdrop.same ⟨rfl, rfl, rfl, rfl, fun hc => hc⟩

theorem TokensKept.apply (h : TokensKept w) (command : Command) : TokensKept (w.apply env command) := by
  unfold Worker.apply
  cases command with
  | «local» copied => exact h.shareLocal copied
  | localClosed => exact h
  | peerText value =>
    dsimp only
    split
    · exact h
    · obtain ⟨hdrop, -⟩ := (h.same (.cancelSending w)).dropReceiving env false
      refine TokensKept.serve_text (hdrop.same ?_) value
      exact ⟨rfl, rfl, rfl, rfl, fun hc => hc⟩
  | peer op => exact h.onPeer op
  | stop => exact h

/-! ## Whole runs -/

/-- What happens to a worker: a command, a pump of the outgoing transfer, the writer taking a record or going away. -/
inductive WorkerEvent where
  | apply (command : Command)
  | pump
  | drain
  | disconnect
deriving DecidableEq

def Worker.handle (env : Surroundings R S) (w : Worker R S) : WorkerEvent → Worker R S
  | .apply command => w.apply env command
  | .pump => w.pump env
  | .drain =>
    match w.out.pop with
    | some (_, out) => { w with out := out }
    | none => w
  | .disconnect => { w with out := w.out.close }

theorem TokensKept.new (options : SyncOptions) : TokensKept (Worker.new options : Worker R S) :=
  ⟨Requests.settled_nil, nofun, nofun, nofun, nofun, fun _ _ => rfl⟩

theorem TokensKept.handle (h : TokensKept w) (env : Surroundings R S) (event : WorkerEvent) : TokensKept (w.handle env event) := by
  cases event with
  | apply command => exact h.apply command
  | pump => exact h.same (.pump env w)
  | drain =>
    unfold Worker.handle
    dsimp only
    split
    · rename_i record out hpop
      refine h.same ⟨rfl, rfl, rfl, rfl, fun hc => ?_⟩
      rw [show out.closed = w.out.closed from (BoundedQueue.pop_eq_some hpop).2.1]
      exact hc
    · exact h
  | disconnect => exact h.same ⟨rfl, rfl, rfl, rfl, fun _ => rfl⟩

theorem TokensKept.run (env : Surroundings R S) : ∀ (events : List WorkerEvent) {w : Worker R S}, TokensKept w →
    TokensKept (events.foldl (Worker.handle env) w)
  | [], _, h => h
  | event :: events, _, h => TokensKept.run env events (h.handle env event)

theorem TokensKept.cleanup (h : TokensKept w) (env : Surroundings R S) : Requests.Settled (w.cleanup env).requests ∧
    ∀ t ∈ Requests.announced (w.cleanup env).requests, Requests.Offered (w.cleanup env).requests t := by
  unfold Worker.cleanup
  dsimp only
  split
  · rename_i token hpending
    obtain ⟨hlast, hrejected⟩ := h.pending token hpending
    refine ⟨h.settled.append ⟨nofun, nofun, fun t ha => ?_⟩, fun t ht => ?_⟩
    · obtain rfl := Option.some.inj ha
      exact ⟨hlast, hrejected⟩
    · rw [Requests.announced_append_of_none _ rfl] at ht
      rcases h.offered t ht with hoff | hp
      · exact hoff.append _
      · rw [hpending] at hp
        obtain rfl := Option.some.inj hp
        exact Requests.offered_last (.inr rfl)
  · rename_i hpending
    refine ⟨h.settled, fun t ht => (h.offered t ht).resolve_right ?_⟩
    rw [hpending]
    exact nofun

end Tokens

/-! ## Settled once -/

/-- Announced tokens increase, each is fulfilled or abandoned before the next, none is fulfilled twice or abandoned after an
accepted fulfil, and only the latest announcement is named. -/
structure Requests.SettledOnce (log : Requests) : Prop where
  fresh : log.announced.Pairwise (· < ·)
  latest : ∀ before call after token, log = before ++ call :: after →
    (call.1.fulfils = some token ∨ call.1.abandons = some token) → (announced before).getLast? = some token
  between : ∀ before call middle call' after token token', log = before ++ call :: middle ++ call' :: after →
    call.1.announces = some token → call'.1.announces = some token' → Offered middle token
  fulfilledOnce : ∀ before call middle call' after token, log = before ++ call :: middle ++ call' :: after →
    call.1.fulfils = some token → call'.1.fulfils ≠ some token
  keptFulfilled : ∀ before call middle call' after token, log = before ++ call :: middle ++ call' :: after →
    call.1.fulfils = some token → call.2 = true → call'.1.abandons ≠ some token
  offered : ∀ token ∈ log.announced, log.Offered token

namespace Requests

variable {log : Requests}

theorem Settled.of_append {before after : Requests} (h : Settled (before ++ after)) : Settled before := by
  intro b call a heq
  exact h b call (a ++ after) (by rw [heq, append_assoc, cons_append])

theorem Settled.announced_increase : ∀ {log : Requests}, Settled log → log.announced.Pairwise (· < ·) := by
  intro log
  induction log using reverseRecOn with
  | nil => exact fun _ => .nil
  | append_singleton log call ih =>
    intro h
    have hlog := ih h.of_append
    cases hcall : call.1.announces with
    | none =>
      rw [announced_append_of_none log hcall]
      exact hlog
    | some token =>
      rw [announced_append, hcall]
      refine pairwise_append.2 ⟨hlog, pairwise_singleton _ _, fun t ht t' ht' => ?_⟩
      obtain rfl := mem_singleton.1 ht'
      exact (((h log call [] rfl).announce t' hcall) t ht).1

theorem Settled.settledOnce (h : Settled log) (hoffered : ∀ t ∈ log.announced, log.Offered t) : log.SettledOnce := by
  refine ⟨h.announced_increase, ?_, ?_, ?_, ?_, hoffered⟩
  · intro before call after token heq hn
    have horder := h before call after heq
    rcases hn with hf | ha
    · exact (horder.fulfil token hf).1
    · exact (horder.abandon token ha).1
  · intro before call middle call' after token token' heq hcall hcall'
    have horder := h (before ++ call :: middle) call' after heq
    have hmem : token ∈ announced (before ++ call :: middle) := by
      rw [append_cons]
      refine announced_mono ?_
      rw [announced_append, hcall]
      exact mem_append_right _ (mem_singleton_self _)
    obtain ⟨-, c, hc, hn⟩ := horder.announce token' hcall' token hmem
    rcases mem_append.1 hc with hc | hc
    · -- before its announcement the token was not named
      rw [heq, append_assoc] at h
      have hbefore := h.of_append.named_mem hc hn
      have hlt := ((h before call (middle ++ call' :: after) rfl).announce token hcall token hbefore).1
      exact absurd hlt (Nat.lt_irrefl _)
    · rcases mem_cons.1 hc with rfl | hc
      · obtain ⟨request, answer⟩ := c
        cases request with
        | announce t kind =>
          rcases hn with hn | hn
          · cases hn
          · cases hn
        | text value | fulfilPng t image | fulfilFiles t paths | abandon t => cases hcall
      · exact ⟨c, hc, hn⟩
  · intro before call middle call' after token heq hcall hcall'
    have horder := h (before ++ call :: middle) call' after heq
    exact (horder.fulfil token hcall').2 call (mem_append_right _ (mem_cons_self ..)) hcall
  · intro before call middle call' after token heq hcall haccepted hcall'
    have horder := h (before ++ call :: middle) call' after heq
    have hfalse := (horder.abandon token hcall').2 call (mem_append_right _ (mem_cons_self ..)) hcall
    rw [haccepted] at hfalse
    cases hfalse

end Requests

/-- Announced clipboard contents are settled once, for every sequence of commands applied to a worker, every target, and then
cleanup. -/
theorem tokens_settled_once {R S : Type} (env : Surroundings R S) (options : SyncOptions) (events : List WorkerEvent) :
    Requests.SettledOnce ((events.foldl (Worker.handle env) (Worker.new options)).cleanup env).requests := by
  obtain ⟨hsettled, hoffered⟩ := (TokensKept.run env events (.new options)).cleanup env
  exact hsettled.settledOnce hoffered

end Jwm.Remote
