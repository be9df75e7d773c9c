import VirtualGamepad.PcmChainPositions

/-! What comes through the audio path, over every run from two empty queues and a new socket. -/
namespace PcmChainDelivery

open PcmQueueDelivery PcmQueueLosses PcmIpcFraming PcmChain PcmChainPositions
open Fallible (Meets)
open PcmIpc
open PcmQueue (Queue PcmFormat pcmQueue)

section Runs

variable {c₁ c₂ capacity : ℕ} {format : Format} {s s₀ : Chain} {source destination : Queue}
  {pcm pcm' : PcmFormat}

theorem perform_tied (h : Tied c₁ c₂ format s) (event : Event) :
    Tied c₁ c₂ format (perform s event) := by
  cases event with
  | produce op =>
    obtain ⟨handled, hd⟩ := h.drains
    have hp : Pumping c₁ format s (produce op s) := by
      cases op <;> exact ⟨h.linked, h.feeds.produce _, rfl, rfl, rfl, rfl, rfl⟩
    exact hp.tied hd
  | consume op => exact h.consume op
  | closeSource =>
    obtain ⟨handled, hd⟩ := h.drains
    have hp : Pumping c₁ format s (closeSource s) :=
      ⟨h.linked, h.feeds.closeSource, rfl, rfl, rfl, rfl, rfl⟩
    exact hp.tied hd
  | closeDestination => exact h.closeDestination
  | outboundPump now first second third =>
    obtain ⟨handled, hd⟩ := h.drains
    exact (outbound_pump_spec h.feeds h.linked now first second third).tied hd
  | outboundClose =>
    obtain ⟨handled, hd⟩ := h.drains
    have hp : Pumping c₁ format s s := ⟨h.linked, h.feeds, rfl, rfl, rfl, rfl, rfl⟩
    exact hp.close.tied hd
  | inboundPump now first second before after =>
    have hspec := inbound_pump_spec h now first second before after
    change Tied c₁ c₂ format (Inbound.pump now first second before after s).2
    rcases hp : Inbound.pump now first second before after s with ⟨e | _, s'⟩
    · rw [hp] at hspec
      exact hspec.2
    · rw [hp] at hspec
      exact hspec
  | inboundClose => exact h.closeInbound

theorem run_tied (h : Tied c₁ c₂ format s) (events : List Event) :
    Tied c₁ c₂ format (events.foldl perform s) := by
  induction events generalizing s with
  | nil => exact h
  | cons event events ih => exact ih (perform_tied h event)

theorem validateQueue_ok (h : validateQueue format pcm = .ok ()) :
    pcm.channels = format.spec.layout format.direction := by
  unfold validateQueue at h
  by_cases hv : pcm.rate = 48000 ∧ pcm.channels = format.spec.layout format.direction
  · exact hv.2
  · rw [if_neg hv] at h
    cases h

theorem new_channels {family : Option Family} {direction : Direction} {generation : ℕ}
    (h : Format.new family direction generation = .ok format) :
    format.channels = (format.spec.layout format.direction).length := by
  unfold PcmIpc.Format.new at h
  split at h
  · cases h
  · split at h
    · cases h
    · split at h <;> cases h
      rfl

/-- A checked queue has the channels of the format. -/
theorem channels_eq {family : Option Family} {direction : Direction} {generation : ℕ}
    (hformat : Format.new family direction generation = .ok format)
    (h : validateQueue format pcm = .ok ()) : pcm.channels.length = format.channels := by
  rw [new_channels hformat, validateQueue_ok h]

theorem initial_counted {q : Queue} (h : pcmQueue pcm capacity = .ok q) (c : ℕ) :
    Counted c [] q := by
  unfold pcmQueue at h
  split at h
  · cases h
    exact ⟨rfl, Nat.zero_le _⟩
  · cases h

theorem initial_accounted {q : Queue} {c : ℕ} (h : pcmQueue pcm capacity = .ok q)
    (hc : pcm.channels.length = c) : Accounted capacity c [] q ∧ q.format = pcm := by
  rw [← hc]
  exact ⟨run_accounted h .nil, run_format h .nil⟩

theorem chain_new (h : Chain.new format source destination = .ok s₀) :
    validateQueue format source.format = .ok () ∧ validateQueue format destination.format = .ok () ∧
      s₀ = {
        source, destination
        outbound := ⟨List.replicate 512 0, none⟩
        link := .new format
        inbound := ⟨List.replicate 512 0, 0⟩
        sourceLog := []
        destinationLog := [] } := by
  unfold Chain.new at h
  cases hv₁ : validateQueue format source.format with
  | error e =>
    rw [hv₁] at h
    cases h
  | ok _ =>
    cases hv₂ : validateQueue format destination.format with
    | error e =>
      rw [hv₁, hv₂] at h
      cases h
    | ok _ =>
      rw [hv₁, hv₂] at h
      exact ⟨rfl, rfl, (Except.ok.inj h).symm⟩

theorem new_tied {family : Option Family} {direction : Direction} {generation : ℕ}
    (hformat : Format.new family direction generation = .ok format)
    (hsource : pcmQueue pcm c₁ = .ok source) (hdestination : pcmQueue pcm' c₂ = .ok destination)
    (hnew : Chain.new format source destination = .ok s₀) : Tied c₁ c₂ format s₀ := by
  obtain ⟨hv₁, hv₂, rfl⟩ := chain_new hnew
  rw [run_format hsource .nil] at hv₁
  rw [run_format hdestination .nil] at hv₂
  obtain ⟨ha₁, _⟩ := initial_accounted hsource (channels_eq hformat hv₁)
  obtain ⟨ha₂, _⟩ := initial_accounted hdestination (channels_eq hformat hv₂)
  obtain ⟨_, _, _, _, hexpected, _⟩ := initial_spec hsource
  refine ⟨new_linked format, ⟨ha₁, ⟨trivial, hexpected.symm⟩, List.prefix_rfl, fun _ => rfl, ?_⟩,
    [], ha₂, initial_counted hdestination _, ⟨rfl, List.Sublist.refl _, rfl⟩, rfl, .inl rfl⟩
  intro r hr
  cases hr

end Runs

section Guarantee

/-- The frames missing in front of the blocks of a list. -/
def gaps : ℕ → List Packet → ℕ
  | _, [] => 0
  | start, p :: ps => (p.block.firstFrame - start) + gaps (stop p) ps

/-- Every position up to the end of a list of blocks lies in a gap or in a block. -/
theorem ends_eq {start : ℕ} {ps : List Packet} (h : Announced start ps) :
    ends start ps = start + gaps start ps + total ps := by
  induction ps generalizing start with
  | nil => rfl
  | cons p ps ih =>
    obtain ⟨⟨hle, _⟩, htail⟩ := h
    have htotal : total (p :: ps) = p.block.frames + total ps := List.sum_cons
    change ends (stop p) ps = start + (p.block.firstFrame - start + gaps (stop p) ps) + _
    rw [ih htail, htotal]
    unfold stop
    omega

/-- The account of the blocks that the destination dealt with. -/
structure Losses (format : Format) (s : Chain) (handled : List Packet) : Prop where
  sent : handled <+: s.link.sent
  /-- All that were received, but for one that found the destination closed. -/
  received : s.link.received = handled ∨ s.destination.closed = true ∧
    ∃ p, s.link.received = handled ++ [p]
  announced : Announced 0 handled
  clock_eq : s.destination.nextFrame = ends 0 handled
  discarded_eq : s.destination.discarded =
    gaps 0 handled + refused format.channels s.destinationLog
  offered : (accepted format.channels s.destinationLog).length +
    refused format.channels s.destinationLog = total handled

/-- Frames come through at their positions, or are counted once. -/
structure PositionsPreserved (format : Format) (s : Chain) : Prop where
  arrived : (accepted format.channels s.destinationLog).Sublist
    (delivered format.channels s.sourceLog)
  in_order : (accepted format.channels s.destinationLog).Pairwise (·.position < ·.position)
  from_source : (delivered format.channels s.sourceLog).Sublist
    (accepted format.channels s.sourceLog)
  read : (delivered format.channels s.destinationLog).Sublist
    (accepted format.channels s.destinationLog)
  no_gap_error : ∀ now first second before after,
    (Inbound.pump now first second before after s).1 ≠ .error Receiver.gapError
  losses : ∃ handled, Losses format s handled ∧
    handled.flatMap (framesOf format.channels) <+: delivered format.channels s.sourceLog

variable {c₁ c₂ : ℕ} {format : Format} {s : Chain} {handled : List Packet}

theorem drains_initial (h : Drains c₂ format handled s) : handled <+: s.link.received := by
  rcases h.received with heq | ⟨_, _, p, hlast⟩
  · exact heq ▸ List.prefix_rfl
  · rw [hlast]
    exact List.prefix_append _ _

theorem frames_initial (h : Tied c₁ c₂ format s) (hd : Drains c₂ format handled s) :
    handled.flatMap (framesOf format.channels) <+: delivered format.channels s.sourceLog := by
  obtain ⟨tail, htail⟩ := (drains_initial hd).trans h.linked.received_initial
  obtain ⟨tail', htail'⟩ := h.feeds.sent_initial
  rw [delivered_eq, ← htail', List.flatMap_append, framesOf_unstamped, ← htail,
    List.flatMap_append, List.append_assoc]
  exact List.prefix_append _ _

theorem tied_losses (h : Tied c₁ c₂ format s) (hd : Drains c₂ format handled s) :
    Losses format s handled := by
  have hsent := (drains_initial hd).trans h.linked.received_initial
  have hannounced : Announced 0 handled := by
    obtain ⟨tail, htail⟩ := hsent
    have hall := h.feeds.announced
    rw [← htail, announced_append] at hall
    exact hall.1
  have hclock : s.destination.nextFrame = ends 0 handled := by
    rw [← hd.destination.clock_eq, hd.settled.clock_eq]
  refine ⟨hsent, ?_, hannounced, hclock, ?_, hd.settled.offered⟩
  · rcases hd.received with heq | ⟨hshut, _, hlast⟩
    · exact .inl heq
    · exact .inr ⟨hshut, hlast⟩
  · have hbalance := hd.counted.balance
    have hoffered := hd.settled.offered
    rw [hclock, ends_eq hannounced] at hbalance
    omega

theorem gapError_not_excused : ¬ Excused Receiver.gapError := by
  rintro (hharmless | haudio)
  · simp [harmless, Receiver.gapError] at hharmless
  · cases haudio

theorem tied_preserved (h : Tied c₁ c₂ format s) : PositionsPreserved format s := by
  obtain ⟨handled, hd⟩ := h.drains
  have hframes := frames_initial h hd
  obtain ⟨_, hsource, _⟩ := h.feeds.source.conveys
  obtain ⟨_, hdestination, _⟩ := hd.destination.conveys
  refine ⟨hd.settled.arrived.trans hframes.sublist, hd.destination.ascending,
    hsource.delivered_sublist, hdestination.delivered_sublist, ?_, handled, tied_losses h hd, hframes⟩
  intro now first second before after herror
  have hspec := inbound_pump_spec h now first second before after
  rcases hp : Inbound.pump now first second before after s with ⟨e | _, s'⟩
  · rw [hp] at hspec herror
    obtain rfl := Except.error.inj herror
    exact gapError_not_excused hspec.1
  · rw [hp] at herror
    cases herror

/-- Whatever the two queues, the socket and the pumps do. -/
theorem chain_preserves_positions {family : Option Family} {direction : Direction} {generation : ℕ}
    {pcm pcm' : PcmFormat} {source destination : Queue} {s₀ : Chain}
    (hformat : Format.new family direction generation = .ok format)
    (hsource : pcmQueue pcm c₁ = .ok source) (hdestination : pcmQueue pcm' c₂ = .ok destination)
    (hnew : Chain.new format source destination = .ok s₀) (events : List Event) :
    PositionsPreserved format (events.foldl perform s₀) :=
  tied_preserved (run_tied (new_tied hformat hsource hdestination hnew) events)

/-- A mono microphone. -/
def family : Family := ⟨some ⟨[], [.microphone], by decide⟩, some 3⟩

/-- A gap in front of the second block, which a destination of one frame refuses. -/
def crowded : List Event :=
  [.produce (.push [7]), .outboundPump 1 .blocked .blocked (.wrote 30), .produce (.discard 2),
    .produce (.push [8, 9]), .inboundPump 2 (.data 64) .blocked [] [],
    .outboundPump 3 (.wrote 64) .blocked (.wrote 64), .inboundPump 4 (.data 64) (.data 64) [] [],
    .outboundPump 5 .blocked .blocked (.wrote 64), .inboundPump 6 (.data 64) (.data 64) [] [],
    .consume (.read [0])]

theorem chain_preserves_positions_crowded :
    ∃ format source destination s₀, Format.new (some family) .microphone 1 = .ok format ∧
      pcmQueue microphone 4 = .ok source ∧ pcmQueue microphone 1 = .ok destination ∧
      Chain.new format source destination = .ok s₀ ∧
      PositionsPreserved format (crowded.foldl perform s₀) := by
  obtain ⟨format, source, destination, s₀, hformat, hsource, hdestination, hnew⟩ :
      ∃ format source destination s₀, Format.new (some family) .microphone 1 = .ok format ∧
        pcmQueue microphone 4 = .ok source ∧ pcmQueue microphone 1 = .ok destination ∧
        Chain.new format source destination = .ok s₀ :=
    ⟨_, _, _, _, rfl, rfl, rfl, rfl⟩
  exact ⟨format, source, destination, s₀, hformat, hsource, hdestination, hnew,
    chain_preserves_positions hformat hsource hdestination hnew crowded⟩

end Guarantee

end PcmChainDelivery
