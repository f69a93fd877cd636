import RedisShake.Go

set_option autoImplicit false

namespace RedisShake

/-- The fields of `conf.Configuration` that the run package reads, but `TargetAddressList`,
which `Main` only indexes with `PickTargetRoundRobin`: the dispatch takes the target picked
for each source as a parameter. `uint` fields are natural numbers; `target.db` is a 64-bit
`int`, `-1` meaning no override. -/
structure Configuration where
  parallel : Nat
  sourceParallel : Nat
  sourceAddressList : List String
  sourcePasswordRaw : String
  targetPasswordRaw : String
  targetDB : Int
  filterKey : List String
  filterSlot : List String
  psync : Bool
  metric : Bool
  senderSize : Nat
  senderCount : Nat
  senderDelayChannelSize : Nat
deriving Repr

/-- What the run package calls and `src/` does not hold: `base.AcceptDB`, membership in
`command.RedisCommands`, `command.GetMatchKeys` on that entry, and `utils.KeyToSlot`. -/
structure Collaborators where
  acceptDB : UInt32 → Bool
  redisCommands : String → Bool
  getMatchKeys : String → List String → List String → List String × Bool
  keyToSlot : String → UInt16

/-- Every db accepted, no command registered, every key kept, every key in slot 0. -/
def Collaborators.permissive : Collaborators where
  acceptDB _ := true
  redisCommands _ := false
  getMatchKeys _ args _ := (args, true)
  keyToSlot _ := 0

/-- Every db accepted, `set` registered, `GetMatchKeys` keeping a command exactly when a
prefix of the filter is a prefix of its first argument, every key in slot 0. -/
def Collaborators.prefixMatching : Collaborators where
  acceptDB _ := true
  redisCommands name := name == "set"
  getMatchKeys _ args keys := (args, keys.any fun f => Go.hasPrefix (args.headD "") f)
  keyToSlot _ := 0

/-- One source, no filter and no `target.db` override, metrics off. -/
def Configuration.plain : Configuration where
  parallel := 1
  sourceParallel := 1
  sourceAddressList := ["127.0.0.1:6379"]
  sourcePasswordRaw := ""
  targetPasswordRaw := ""
  targetDB := -1
  filterKey := []
  filterSlot := []
  psync := true
  metric := false
  senderSize := 104857600
  senderCount := 5000
  senderDelayChannelSize := 32768

end RedisShake
