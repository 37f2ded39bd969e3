/-!
# The default user agent
-/

namespace SettingsRelay

def runtimeVersion : String := "0.1.0"

/-- The user agent that the runtime reports where no host overrides it. -/
def defaultUserAgent : String :=
  "Mozilla/5.0 (Linux; Android) AppleWebKit/537.36 (KHTML, like Gecko) Crosswalk/" ++
    runtimeVersion ++ " Mobile Safari/537.36"

end SettingsRelay
