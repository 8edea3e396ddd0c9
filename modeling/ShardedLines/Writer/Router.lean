/-!
Choosing the shard of the next record.
-/

namespace ShardedLines

/-- A way to choose shards, and how far it has come. -/
inductive Router where
  /-- Takes the shards in turn; `next` is taken modulo the number of shards. -/
  | roundRobin (next : Nat)
  /-- Chooses by the numbers of shards of earlier choices, the oldest first, and of this one. -/
  | custom (earlier : List Nat) (choose : List Nat → Nat → Nat)

namespace Router

/-- Takes the shards in turn from the first. -/
def fromFirst : Router := roundRobin 0

/-- Takes the shards in turn from a given one. -/
def startingAt (shard : Nat) : Router := roundRobin shard

/-- Chooses by a function of the number of shards. -/
def ofFunction (choose : Nat → Nat) : Router := custom [] fun _ shards => choose shards

/-- Chooses by a function that remembers what it was asked before. -/
def ofHistory (choose : List Nat → Nat → Nat) : Router := custom [] choose

/-- The shard of the next record. -/
def pick (shards : Nat) : Router → Nat × Router
  | roundRobin next =>
    let shard := next % shards
    (shard, roundRobin (shard + 1))
  | custom earlier choose => (choose earlier shards, custom (earlier ++ [shards]) choose)

@[simp] theorem pick_startingAt (shard shards : Nat) :
    (startingAt shard).pick shards = (shard % shards, startingAt (shard % shards + 1)) := rfl

/-- The shards of so many records in turn, for given numbers of shards. -/
def picks : List Nat → Router → List Nat
  | [], _ => []
  | shards :: rest, router =>
    let (shard, router) := router.pick shards
    shard :: picks rest router

end Router

end ShardedLines
