import Weaving.Text.Shown

/-! The settings of a proxy. -/
namespace Weaving

structure ProxySettings where
  /-- Extend the target class instead of implementing interfaces. -/
  proxyTargetClass : Bool := false
  optimize : Bool := false
  /-- Hide the configuration from users of the proxy. -/
  concealed : Bool := false
  /-- Refuse changes of the advisors. -/
  frozen : Bool := false
  deriving DecidableEq, Repr, Inhabited

namespace ProxySettings

def shown (c : ProxySettings) : String :=
  Text.record "ProxyConfig" [("proxy_target_class", Text.boolean c.proxyTargetClass),
    ("optimize", Text.boolean c.optimize), ("opaque", Text.boolean c.concealed),
    ("frozen", Text.boolean c.frozen)]

end ProxySettings
end Weaving
