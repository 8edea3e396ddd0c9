import ShardedLines.Channel.File
import ShardedLines.Channel.Memory
import ShardedLines.Proofs.Channel.Broadcast

/-!
The life of a channel.

A channel is open until it is closed for the first time, whatever the close answers, and from then on
it refuses every call and keeps what it holds. `Service.Lasting` is what single calls have to do for
this, and `Service.isOpen_after` follows what a whole life does. A set of shards keeps its own flag
beside its shards; they agree at every point, also where a shard fails to close (`ShardSet.Together`).
-/

namespace ShardedLines

/-! ## Services -/

/-- Something that is called until it is closed. `contents` is what calls leave behind in it. -/
structure Service (ι σ ρ : Type) where
  serve : ι → σ → Outcome σ Unit
  /-- Whether a call asks to close it. -/
  closes : ι → Bool
  isOpen : σ → Bool
  contents : σ → ρ

/-- A step in a life: a call, or something that happens between two calls. -/
inductive LifeStep (ι σ : Type) where
  | call (call : ι)
  | meanwhile (change : σ → σ)

namespace Service

variable {ι σ ρ : Type} (service : Service ι σ ρ)

def step (s : σ) : LifeStep ι σ → σ
  | .call call => (service.serve call s).2
  | .meanwhile change => change s

/-- The state after some steps. -/
def after (s : σ) (steps : List (LifeStep ι σ)) : σ := steps.foldl service.step s

/-- Whether a close is among some steps. -/
def closed (steps : List (LifeStep ι σ)) : Bool :=
  steps.any fun
    | .call call => service.closes call
    | .meanwhile _ => false

/-- What happens between the calls neither opens nor closes anything. -/
def Harmless (steps : List (LifeStep ι σ)) : Prop :=
  ∀ change, .meanwhile change ∈ steps → ∀ s, service.isOpen (change s) = service.isOpen s

/-- A close is the only call that ends the life, and afterwards every call is refused. -/
structure Lasting : Prop where
  isOpen_serve : ∀ call s,
    service.isOpen (service.serve call s).2 = (service.isOpen s && !service.closes call)
  refused : ∀ call s, service.isOpen s = false →
    (service.serve call s).1 = .error .channelClosed ∧
      service.contents (service.serve call s).2 = service.contents s

variable {service}

/-- What every call keeps, and all that happens between them, a life keeps. -/
theorem after_keeps {kept : σ → Prop} (serves : ∀ call s, kept s → kept (service.serve call s).2)
    {steps : List (LifeStep ι σ)}
    (changes : ∀ change, .meanwhile change ∈ steps → ∀ s, kept s → kept (change s)) {s : σ}
    (hs : kept s) : kept (service.after s steps) := by
  induction steps generalizing s with
  | nil => exact hs
  | cons step rest ih =>
    have hrest : ∀ change, .meanwhile change ∈ rest → ∀ s, kept s → kept (change s) :=
      fun change hc => changes change (List.mem_cons_of_mem _ hc)
    cases step with
    | call call => exact ih hrest (serves call s hs)
    | meanwhile change => exact ih hrest (changes change List.mem_cons_self s hs)

theorem isOpen_after (lasting : service.Lasting) {steps : List (LifeStep ι σ)}
    (harmless : service.Harmless steps) (s : σ) :
    service.isOpen (service.after s steps) = (service.isOpen s && !service.closed steps) := by
  induction steps generalizing s with
  | nil => simp [after, closed]
  | cons step rest ih =>
    have hrest : service.Harmless rest := fun change hc => harmless change (List.mem_cons_of_mem _ hc)
    have hafter : service.after s (step :: rest) = service.after (service.step s step) rest := rfl
    rw [hafter, ih hrest]
    cases step with
    | call call =>
      change (service.isOpen (service.serve call s).2 && _) = (_ && !(service.closes call || _))
      rw [lasting.isOpen_serve, Bool.not_or, Bool.and_assoc]
      rfl
    | meanwhile change =>
      change (service.isOpen (change s) && _) = (_ && !(false || _))
      rw [harmless change List.mem_cons_self, Bool.false_or]
      rfl

variable (service)

/-- After some steps from an open state: the channel is open unless a close was among them, and if
one was, whatever is asked next is refused and changes nothing. -/
structure LivesOnce (s : σ) (steps : List (LifeStep ι σ)) : Prop where
  isOpen : service.isOpen (service.after s steps) = !service.closed steps
  refused : service.closed steps = true → ∀ call,
    (service.serve call (service.after s steps)).1 = .error .channelClosed ∧
      service.contents (service.serve call (service.after s steps)).2 =
        service.contents (service.after s steps)

variable {service}

theorem Lasting.livesOnce (lasting : service.Lasting) {s : σ} (hs : service.isOpen s = true)
    {steps : List (LifeStep ι σ)} (harmless : service.Harmless steps) :
    service.LivesOnce s steps := by
  have hopen := isOpen_after lasting harmless s
  rw [hs, Bool.true_and] at hopen
  refine ⟨hopen, fun hclosed call => lasting.refused call _ ?_⟩
  rw [hopen, hclosed]
  rfl

end Service

/-! ## Calls of channels -/

/-- A call of a single stream. -/
inductive StreamCall where
  | write (buffer : Bytes)
  | close

/-- A call of a channel with shards, to its single stream or to a shard. -/
inductive ShardingCall where
  | stream (call : StreamCall)
  | writeToShard (shard : Nat) (buffer : Bytes)

def StreamCall.closes : StreamCall → Bool
  | write _ => false
  | close => true

def ShardingCall.closes : ShardingCall → Bool
  | stream call => call.closes
  | writeToShard .. => false

/-- Makes a call of a channel; how many bytes a write takes is not told. -/
def ByteChannel.serve {κ : Type} [ByteChannel κ] : StreamCall → κ × World → Outcome (κ × World) Unit
  | .write buffer, s => ((write buffer s).1.map fun _ => (), (write buffer s).2)
  | .close, s => close s

def ShardingChannel.serve {κ : Type} [ShardingChannel κ] :
    ShardingCall → κ × World → Outcome (κ × World) Unit
  | .stream call, s => ByteChannel.serve call s
  | .writeToShard shard buffer, s =>
    ((writeToShard shard buffer s).1.map fun _ => (), (writeToShard shard buffer s).2)

/-- A memory channel, with all writers that share it. -/
def MemoryChannel.service : Service ShardingCall (MemoryChannel × World) (Bytes × List Bytes) where
  serve := ShardingChannel.serve
  closes := ShardingCall.closes
  isOpen s := s.1.isOpen
  contents s := (s.1.stream, s.1.shards)

/-- A single stream, with all that it writes to. -/
def ByteChannel.service (κ : Type) [ByteChannel κ] : Service StreamCall (κ × World) (κ × World) where
  serve := serve
  closes := StreamCall.closes
  isOpen s := isOpen s.1
  contents s := s

/-- A set of shards, with all that its shards write to. -/
def ShardSet.service (κ : Type) [ByteChannel κ] [Located κ] :
    Service ShardingCall (ShardSet κ × World) (ShardSet κ × World) where
  serve := ShardingChannel.serve
  closes := ShardingCall.closes
  isOpen s := s.1.isOpen
  contents s := s

/-! ## Memory channels and files -/

namespace MemoryChannel

theorem isOpen_write (buffer : Bytes) (channel : MemoryChannel) :
    (channel.write buffer).2.isOpen = channel.isOpen := by
  rw [write]
  split <;> rfl

theorem isOpen_writeToShard (shard : Nat) (buffer : Bytes) (channel : MemoryChannel) :
    (channel.writeToShard shard buffer).2.isOpen = channel.isOpen := by
  rw [writeToShard]
  split
  · rfl
  · split <;> rfl

theorem refusal?_of_closed {channel : MemoryChannel} (h : channel.isOpen = false) :
    channel.refusal? = some .channelClosed := by
  simp [refusal?, h]

/-- What a refused write answers, and what it leaves. -/
theorem serve_of_eq {channel : MemoryChannel} {outcome : Outcome MemoryChannel Nat}
    (h : outcome = (.error .channelClosed, channel)) :
    (outcome.1.map fun _ => ()) = .error .channelClosed ∧
      (outcome.2.stream, outcome.2.shards) = (channel.stream, channel.shards) := by
  subst h
  exact ⟨rfl, rfl⟩

theorem lasting : service.Lasting where
  isOpen_serve call s := by
    cases call with
    | stream call =>
      cases call with
      | write buffer => exact (isOpen_write buffer s.1).trans (Bool.and_true _).symm
      | close => exact (Bool.and_false _).symm
    | writeToShard shard buffer =>
      exact (isOpen_writeToShard shard buffer s.1).trans (Bool.and_true _).symm
  refused call s h := by
    have hrefusal : s.1.refusal? = some .channelClosed := refusal?_of_closed h
    cases call with
    | stream call =>
      cases call with
      | write buffer =>
        have hw : s.1.write buffer = (.error .channelClosed, s.1) := by rw [write, hrefusal]
        exact serve_of_eq hw
      | close =>
        refine ⟨?_, rfl⟩
        change s.1.close.1 = _
        rw [close, show s.1.isOpen = false from h]
        rfl
    | writeToShard shard buffer =>
      have hw : s.1.writeToShard shard buffer = (.error .channelClosed, s.1) := by
        rw [writeToShard, hrefusal]
      exact serve_of_eq hw

end MemoryChannel

theorem FileChannel.lasting : (ByteChannel.service FileChannel).Lasting where
  isOpen_serve call s := by
    obtain ⟨⟨path, handle?⟩, world⟩ := s
    cases call <;> cases handle? <;> rfl
  refused call s h := by
    obtain ⟨⟨path, handle?⟩, world⟩ := s
    cases handle? with
    | some handle => cases h
    | none => cases call <;> exact ⟨rfl, rfl⟩

/-! ## Sets of shards -/

namespace ShardSet

variable {κ : Type} [ByteChannel κ]

/-- Which of some shards are open. -/
def openings (shards : List κ) : List Bool := shards.map ByteChannel.isOpen

/-- The set has shards, and is open exactly if each of them is. -/
structure Together (set : ShardSet κ) : Prop where
  nonempty : openings set.shards ≠ []
  agree : ∀ opening ∈ openings set.shards, opening = set.isOpen

theorem Together.isOpen_eq {set : ShardSet κ} (h : set.Together) :
    set.isOpen = set.shards.all ByteChannel.isOpen := by
  have hall : (openings set.shards).all id = set.isOpen := by
    obtain ⟨first, rest, hopenings⟩ := List.exists_cons_of_ne_nil h.nonempty
    have hagree := h.agree
    rw [hopenings] at hagree ⊢
    cases hset : set.isOpen with
    | true => exact List.all_eq_true.mpr fun opening ho => (hagree opening ho).trans hset
    | false =>
      rw [List.all_cons, hagree first List.mem_cons_self, hset]
      rfl
  rw [← hall, openings, List.all_map]
  rfl

theorem Together.of_same {set next : ShardSet κ} (h : set.Together)
    (flag : next.isOpen = set.isOpen) (same : openings next.shards = openings set.shards) :
    next.Together where
  nonempty := by
    rw [same]
    exact h.nonempty
  agree := by
    rw [same, flag]
    exact h.agree

variable [Located κ]

/-- A set goes by its flag alone, whatever its shards answer. -/
theorem lasting : (service κ).Lasting where
  isOpen_serve call s := by
    cases call with
    | stream call =>
      cases call with
      | write buffer => exact (isOpen_write buffer s.1 s.2).trans (Bool.and_true _).symm
      | close =>
        refine Eq.trans ?_ (Bool.and_false _).symm
        change (s.1.close s.2).2.1.isOpen = false
        rw [close]
        split
        next h => simpa using h
        next => rfl
    | writeToShard shard buffer =>
      exact (isOpen_writeToShard shard buffer s.1 s.2).trans (Bool.and_true _).symm
  refused call s h := by
    obtain ⟨⟨shards, isOpen⟩, world⟩ := s
    obtain rfl : isOpen = false := h
    rcases call with (buffer | _) | ⟨shard, buffer⟩ <;> exact ⟨rfl, rfl⟩

variable (shardsLast : (ByteChannel.service κ).Lasting)

include shardsLast

omit [Located κ] in
theorem isOpen_shard_write (buffer : Bytes) (s : κ × World) :
    ByteChannel.isOpen (ByteChannel.write buffer s).2.1 = ByteChannel.isOpen s.1 :=
  (shardsLast.isOpen_serve (.write buffer) s).trans (Bool.and_true _)

/-- Every shard is closed in the end, also those behind one that fails. -/
theorem openings_closeEach (shards : List κ) (world : World) :
    openings (closeEach shards world).2.1 = shards.map fun _ => false := by
  induction shards generalizing world with
  | nil => rfl
  | cons shard rest ih =>
    have hclosed : ByteChannel.isOpen (ByteChannel.close (shard, world)).2.1 = false :=
      (shardsLast.isOpen_serve .close (shard, world)).trans (Bool.and_false _)
    rcases hc : ByteChannel.close (shard, world) with ⟨fault | _, next, later⟩
    · rw [hc] at hclosed
      simp only [closeEach, hc, openings, List.map_cons]
      exact congrArg₂ List.cons hclosed (ih _)
    · rw [hc] at hclosed
      simp only [closeEach, hc, openings, List.map_cons]
      exact congrArg₂ List.cons hclosed (ih _)

/-- Flag and shards go on agreeing: writes leave both as they are, and a close turns all of them. -/
theorem Together.serve {s : ShardSet κ × World} (h : s.1.Together) (call : ShardingCall) :
    ((service κ).serve call s).2.1.Together := by
  have keeps := isOpen_shard_write shardsLast
  cases call with
  | stream call =>
    cases call with
    | write buffer =>
      exact h.of_same (isOpen_write buffer s.1 s.2) (map_write keeps buffer s.1 s.2)
    | close =>
      have hclosed := openings_closeEach shardsLast s.1.shards s.2
      change (s.1.close s.2).2.1.Together
      rw [close]
      split
      next => exact h
      next =>
        refine ⟨?_, ?_⟩
        · change openings (closeEach s.1.shards s.2).2.1 ≠ []
          rw [hclosed]
          simpa [openings] using h.nonempty
        · intro opening ho
          obtain ⟨_, _, rfl⟩ := List.mem_map.mp (hclosed ▸ ho)
          rfl
  | writeToShard shard buffer =>
    exact h.of_same (isOpen_writeToShard shard buffer s.1 s.2)
      (map_writeToShard keeps shard buffer s.1 s.2)

end ShardSet

/-! ## Whole lives -/

/-- What happens between the calls does not touch the channel, but only the world around it. -/
def LifeStep.Beside {ι κ : Type} (steps : List (LifeStep ι (κ × World))) : Prop :=
  ∀ change, .meanwhile change ∈ steps → ∀ s, (change s).1 = s.1

/-- A memory channel with all its clones, a file and a set of files are each open until they are
first closed and never again; then every call is refused as a broken pipe, and nothing is written. A
set that is made of open files, of at least one, is open at every point exactly if all of them are.
A memory channel may be told to fail in any way between the calls, and the file system may change. -/
theorem channels_live_once :
    Fault.channelClosed.kind = .brokenPipe ∧
    (∀ (s : MemoryChannel × World) (steps), s.1.isOpen = true →
      MemoryChannel.service.Harmless steps → MemoryChannel.service.LivesOnce s steps) ∧
    (∀ (s : FileChannel × World) (steps), s.1.isOpen = true →
      LifeStep.Beside steps → (ByteChannel.service FileChannel).LivesOnce s steps) ∧
    (∀ (shards : List FileChannel) (world : World) (steps), shards ≠ [] →
      (∀ shard ∈ shards, shard.isOpen = true) → LifeStep.Beside steps →
        let set : ShardSet FileChannel := { shards }
        let last := ((ShardSet.service FileChannel).after (set, world) steps).1
        (ShardSet.service FileChannel).LivesOnce (set, world) steps ∧
          last.isOpen = last.shards.all FileChannel.isOpen) := by
  refine ⟨rfl, ?_, ?_, ?_⟩
  · intro s steps hopen harmless
    exact MemoryChannel.lasting.livesOnce hopen harmless
  · intro s steps hopen beside
    exact FileChannel.lasting.livesOnce hopen
      fun change hc s => congrArg FileChannel.isOpen (beside change hc s)
  · intro shards world steps hne hopen beside set last
    have together : set.Together := by
      refine ⟨by simpa [ShardSet.openings] using hne, ?_⟩
      intro opening ho
      obtain ⟨shard, hs, rfl⟩ := List.mem_map.mp ho
      exact hopen shard hs
    let kept (s : ShardSet FileChannel × World) : Prop := s.1.Together
    have serves : ∀ call s, kept s → kept ((ShardSet.service FileChannel).serve call s).2 :=
      fun call _ h => h.serve FileChannel.lasting call
    have changes : ∀ change, .meanwhile change ∈ steps → ∀ s, kept s → kept (change s) := by
      intro change hc s h
      change (change s).1.Together
      rw [beside change hc s]
      exact h
    have hlast : last.Together := Service.after_keeps serves changes together
    exact ⟨ShardSet.lasting.livesOnce rfl
      fun change hc s => congrArg ShardSet.isOpen (beside change hc s), hlast.isOpen_eq⟩

/-- A memory channel that was told to be interrupted and to fail its close, a file that is gone when
it is closed, and a set with a device that is full among its shards. -/
theorem channels_live_once_failing :
    let told : MemoryChannel × World → MemoryChannel × World :=
      fun (channel, world) =>
        ((channel.failWrites .interrupted "again").failClose .other "close", world)
    let memory : MemoryChannel × World := (.sharded 2, ⟨Disk.fresh, []⟩)
    let memorySteps : List (LifeStep ShardingCall _) := [.call (.writeToShard 1 [97]),
      .meanwhile told, .call (.stream (.write [])), .call (.writeToShard 7 []), .call (.stream .close)]
    let memoryEnd := MemoryChannel.service.after memory memorySteps
    let gone : FileChannel × World → FileChannel × World := fun (file, world) =>
      (file, { world with disk := Disk.fresh })
    let file : FileChannel × World :=
      (⟨"a", some { location := ["a"] }⟩, ⟨⟨[(["a"], .file [])], []⟩, []⟩)
    let fileSteps : List (LifeStep StreamCall _) :=
      [.call (.write [97]), .meanwhile gone, .call .close]
    let fileEnd := (ByteChannel.service FileChannel).after file fileSteps
    let shards : List FileChannel := [⟨"/dev/full", some { location := ["dev", "full"] }⟩, file.1]
    let setSteps : List (LifeStep ShardingCall _) :=
      [.call (.stream (.write [97])), .call (.stream .close)]
    let setEnd := (ShardSet.service FileChannel).after ({ shards }, ⟨Disk.fresh, []⟩) setSteps
    (memoryEnd.1.isOpen = false ∧
      (MemoryChannel.service.serve (.stream .close) memoryEnd).1 = .error .channelClosed) ∧
    (fileEnd.1.isOpen = false ∧
      (ByteChannel.service FileChannel).serve (.write []) fileEnd = (.error .channelClosed, fileEnd)) ∧
    setEnd.1.isOpen = false ∧ setEnd.1.shards.all FileChannel.isOpen = false := by
  intro told memory memorySteps memoryEnd gone file fileSteps fileEnd shards setSteps setEnd
  obtain ⟨-, hmemory, hfile, hset⟩ := channels_live_once
  refine ⟨?_, ?_, ?_⟩
  · have harmless : MemoryChannel.service.Harmless memorySteps := by
      intro change hc s
      obtain rfl : change = told := by simpa [memorySteps] using hc
      rfl
    have h := hmemory memory memorySteps rfl harmless
    exact ⟨h.isOpen, (h.refused rfl (.stream .close)).1⟩
  · have beside : LifeStep.Beside fileSteps := by
      intro change hc s
      obtain rfl : change = gone := by simpa [fileSteps] using hc
      rfl
    have h := hfile file fileSteps rfl beside
    exact ⟨h.isOpen, Prod.ext (h.refused rfl (.write [])).1 (h.refused rfl (.write [])).2⟩
  · have beside : LifeStep.Beside setSteps := by
      intro change hc
      simp [setSteps] at hc
    have hopen : ∀ shard ∈ shards, shard.isOpen = true := by
      simp [shards, file, FileChannel.isOpen]
    obtain ⟨h, hall⟩ := hset shards ⟨Disk.fresh, []⟩ setSteps (List.cons_ne_nil _ _) hopen beside
    exact ⟨h.isOpen, hall ▸ h.isOpen⟩

end ShardedLines
