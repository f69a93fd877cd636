import RedisShake.Go
import RedisShake.Schedule
import RedisShake.Configure
import RedisShake.Run.Parser
import RedisShake.Run.Routing
import RedisShake.Run.Pipeline
import RedisShake.Run.Sender
import RedisShake.Run.Flush
import RedisShake.Run.Delay
import RedisShake.Run.Counters
import RedisShake.Run.Sampling
import RedisShake.Run.Restore
import RedisShake.Run.Psync
import RedisShake.Run.Dispatch
import RedisShake.Run.Probe
import RedisShake.Run.Metric
import RedisShake.Run.Panics
import RedisShake.Run.Phases
