import Himadri.Core.KeyMap

/-!
# The rate limiter's buckets

`TokenBucket` and `RateLimiter` of `himadri-ratelimit`, as far as a configuration change reaches
them: the defaults it retunes and the buckets it drops.
-/

namespace Himadri

/-- `TokenBucket`: two shared words and the parameters it was built with. -/
structure TokenBucket where
  tokens : ℕ
  /-- When the bucket was last credited, in microseconds of the process clock. -/
  lastRefill : ℕ
  rate : ℕ
  capacity : ℕ
  deriving DecidableEq

/-- `RateLimiter`. The shards of its two stores are one map each. -/
structure RateLimiter where
  global : KeyMap String TokenBucket
  perEntity : KeyMap String TokenBucket
  defaultRate : ℕ
  defaultBurst : ℕ

namespace RateLimiter

/-- `RateLimiter::new`. -/
def new (defaultRate defaultBurst : ℕ) : RateLimiter where
  global := .empty
  perEntity := .empty
  defaultRate := defaultRate
  defaultBurst := defaultBurst

/-- `RateLimiter::set_defaults`. -/
def setDefaults (limiter : RateLimiter) (rate burst : ℕ) : RateLimiter :=
  { limiter with defaultRate := rate, defaultBurst := burst }

/-- `RateLimiter::clear`. The defaults are kept. -/
def clear (limiter : RateLimiter) : RateLimiter :=
  { limiter with global := .empty, perEntity := .empty }

end RateLimiter

end Himadri
