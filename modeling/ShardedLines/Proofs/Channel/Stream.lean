import ShardedLines.Channel.Scripted
import ShardedLines.Proofs.Channel.FullWrite

/-!
Single streams.

A `StreamView` shows what the single stream of a channel has received. A write that answers with a
count adds so much of its offer to the stream, and one that fails adds nothing and leaves the
channel fit for more. This allows short writes, writes that take nothing, interruptions that come
to an end, and any other failure. A line written in full is then added whole, or a strict part of
it is and the write fails.

A script is followed by a scripted channel whatever it says, so every order of such answers occurs.
-/

namespace ShardedLines

/-- What the single stream of a channel has received, and how writes add to it. -/
structure StreamView (κ : Type) [ByteChannel κ] where
  stream : κ × World → Bytes
  /-- The states in which writes keep to the view. -/
  valid : κ × World → Prop
  accepted : ∀ {s t buffer count}, valid s → buffer ≠ [] →
    ByteChannel.write buffer s = (.ok count, t) →
      valid t ∧ stream t = stream s ++ buffer.take count
  refused : ∀ {s t buffer fault}, valid s → buffer ≠ [] →
    ByteChannel.write buffer s = (.error fault, t) →
      valid t ∧ stream t = stream s ∧
        (fault.isInterruption → ByteChannel.patience buffer t < ByteChannel.patience buffer s)

namespace StreamView

variable {κ : Type} [ByteChannel κ] (view : StreamView κ)

/-- The stream has received these bytes, in a state that the view covers. -/
def Shows (s : κ × World) (received : Bytes) : Prop :=
  view.valid s ∧ view.stream s = received

/-- Every write takes something, unless it is interrupted. -/
def Steady : Prop :=
  ShardedLines.Steady (ByteChannel.write (κ := κ)) view.valid

/-- The channel counts so many copies of what is written to its stream. -/
def HasWidth (copies : Nat) : Prop :=
  ∀ s, view.valid s → ByteChannel.width s.1 = copies

/-- What others may do to a channel between two calls of its writer. -/
def Harmless (change : κ × World → κ × World) : Prop :=
  ∀ s, view.valid s → view.valid (change s) ∧ view.stream (change s) = view.stream s

/-- Closing takes nothing from the stream, whatever is logged besides. -/
def KeptByClosing : Prop :=
  ∀ s t, view.valid s → t.1 = (ByteChannel.close s).2.1 →
    t.2.disk = (ByteChannel.close s).2.2.disk → view.stream t = view.stream s

variable {view}

theorem shows_stream {s : κ × World} (h : view.valid s) : view.Shows s (view.stream s) :=
  ⟨h, rfl⟩

theorem Harmless.shows {change : κ × World → κ × World} (h : view.Harmless change)
    {s : κ × World} {received : Bytes} (hs : view.Shows s received) :
    view.Shows (change s) received :=
  ⟨(h s hs.1).1, (h s hs.1).2.trans hs.2⟩

theorem writeLaw : WriteLaw (ByteChannel.write (κ := κ)) ByteChannel.patience view.Shows
    (· ++ ·) where
  grow_nil := List.append_nil
  grow_append _ _ _ := (List.append_assoc ..).symm
  accepted := fun ⟨hs, ha⟩ hb hw =>
    ⟨(view.accepted hs hb hw).1, ha ▸ (view.accepted hs hb hw).2⟩
  refused := fun ⟨hs, ha⟩ hb hw =>
    ⟨⟨(view.refused hs hb hw).1, ha ▸ (view.refused hs hb hw).2.1⟩, (view.refused hs hb hw).2.2⟩

theorem writeAll (line : Bytes) {s : κ × World} {received : Bytes} (h : view.Shows s received) :
    FullWrite view.Shows (· ++ ·) received line (ByteChannel.writeAll line s) :=
  view.writeLaw.fullWrite line h

theorem writeAll_of_steady (steady : view.Steady) (line : Bytes) {s : κ × World}
    {received : Bytes} (h : view.Shows s received) :
    ∃ t, ByteChannel.writeAll line s = (.ok (), t) ∧ view.Shows t (received ++ line) :=
  view.writeLaw.fullWrite_of_steady (fun _ _ _ hs => steady hs.1) line h

/-- The view of the states that have a further property, which writes keep. -/
def narrow (view : StreamView κ) (live : κ × World → Prop)
    (kept : ∀ {s t buffer answer}, live s → ByteChannel.write buffer s = (answer, t) → live t) :
    StreamView κ where
  stream := view.stream
  valid s := view.valid s ∧ live s
  accepted := fun ⟨hv, hl⟩ hb hw =>
    have h := view.accepted hv hb hw
    ⟨⟨h.1, kept hl hw⟩, h.2⟩
  refused := fun ⟨hv, hl⟩ hb hw =>
    have h := view.refused hv hb hw
    ⟨⟨h.1, kept hl hw⟩, h.2⟩

end StreamView

/-! ## Scripted channels -/

namespace ScriptedChannel

theorem write_eq (buffer : Bytes) (s : ScriptedChannel × World) :
    ByteChannel.write buffer s = ((s.1.offer none buffer).1, (s.1.offer none buffer).2, s.2) := rfl

theorem script_offer (shard? : Option Nat) (buffer : Bytes) (channel : ScriptedChannel) :
    (channel.offer shard? buffer).2.script = channel.script.tail := by
  unfold offer keep
  rcases channel.script with _ | ⟨_ | _, _⟩ <;> cases shard? <;> rfl

theorem width_offer (shard? : Option Nat) (buffer : Bytes) (channel : ScriptedChannel) :
    (channel.offer shard? buffer).2.width = channel.width := by
  unfold offer keep
  rcases channel.script with _ | ⟨_ | _, _⟩ <;> cases shard? <;> rfl

theorem stream_of_offer_ok {channel next : ScriptedChannel} {buffer : Bytes} {count : Nat}
    (h : channel.offer none buffer = (.ok count, next)) :
    next.stream = channel.stream ++ buffer.take count := by
  unfold offer at h
  rcases hs : channel.script with _ | ⟨_ | _, _⟩ <;>
    simp only [hs, nextLine, keep] at h <;> cases h <;> rfl

theorem stream_of_offer_error {channel next : ScriptedChannel} {buffer : Bytes} {fault : Fault}
    (h : channel.offer none buffer = (.error fault, next)) :
    next.stream = channel.stream ∧ next.script.length < channel.script.length := by
  unfold offer at h
  rcases hs : channel.script with _ | ⟨_ | _, _⟩ <;>
    simp only [hs, nextLine, keep] at h <;> cases h
  exact ⟨rfl, Nat.lt_succ_self _⟩

/-- Whatever the script says, the stream keeps what is taken and nothing else. -/
def view (copies : Nat) : StreamView ScriptedChannel where
  stream s := s.1.stream
  valid s := s.1.width = copies
  accepted {s t buffer count} hs _ hw := by
    obtain ⟨ha, ht⟩ := Prod.mk.inj hw
    subst ht
    exact ⟨(width_offer ..).trans hs, stream_of_offer_ok (Prod.ext ha rfl)⟩
  refused {s t buffer fault} hs _ hw := by
    obtain ⟨ha, ht⟩ := Prod.mk.inj hw
    subst ht
    obtain ⟨hstream, hscript⟩ := stream_of_offer_error (Prod.ext ha rfl)
    exact ⟨(width_offer ..).trans hs, hstream, fun _ => hscript⟩

theorem view_hasWidth (copies : Nat) : (view copies).HasWidth copies := fun _ hs => hs

end ScriptedChannel

/-- The line of a script takes something, or interrupts. -/
def ScriptLine.Progresses : ScriptLine → Prop
  | take count => 0 < count
  | fail fault => fault.isInterruption

namespace ScriptedChannel

/-- The script only delays what is written. -/
def Delays (channel : ScriptedChannel) : Prop :=
  ∀ line ∈ channel.script, line.Progresses

/-- The view of those channels that only delay what is written. -/
def steadyView (copies : Nat) : StreamView ScriptedChannel :=
  (view copies).narrow (fun s => s.1.Delays) fun {s t buffer answer} hs hw line hl => by
    have ht := congrArg (·.2.1.script) hw
    simp only [write_eq, script_offer] at ht
    rw [← ht] at hl
    exact hs line (List.mem_of_mem_tail hl)

theorem steadyView_steady (copies : Nat) : (steadyView copies).Steady := by
  intro s buffer hs hb
  obtain ⟨_, hs⟩ := hs
  rw [write_eq, offer]
  rcases hl : s.1.script with _ | ⟨count | fault, rest⟩
  · exact List.length_pos_iff.mpr hb
  · exact hs (.take count) (by simp [hl])
  · exact hs (.fail fault) (by simp [hl])

theorem steadyView_keptByClosing (copies : Nat) : (steadyView copies).KeptByClosing := by
  intro s t _ hc _
  have h := congrArg ScriptedChannel.stream hc
  exact h

theorem steadyView_hasWidth (copies : Nat) : (steadyView copies).HasWidth copies :=
  fun _ hs => hs.1

end ScriptedChannel

end ShardedLines
