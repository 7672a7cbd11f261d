/-!
# Attributes ignored by the toolbox comparisons

One list for each kind of entity, in the order of the source.
-/

namespace ThreescaleTests.Toolbox

def serviceCmpAttrs : List String :=
  ["created_at", "id", "links", "system_name", "support_email", "updated_at"]

def proxyConfigContentCmpAttrs : List String :=
  ["account_id", "backend_authentication_value", "created_at", "id", "proxy", "support_email",
    "tenant_id", "updated_at"]

def proxyConfigContentProxyCmpAttrs : List String :=
  ["backend", "created_at", "endpoint", "hosts", "id", "lock_version", "policy_chain",
    "production_domain", "proxy_rules", "sandbox_endpoint", "secret_token", "service_id",
    "staging_domain", "tenant_id", "updated_at"]

def proxyRulesCmpAttrs : List String :=
  ["created_at", "id", "metric_id", "metric_system_name", "owner_id", "proxy_id", "tenant_id",
    "updated_at"]

def proxyCmpAttrs : List String :=
  ["api_backend", "created_at", "endpoint", "links", "lock_version", "policies_config",
    "sandbox_endpoint", "service_id", "updated_at"]

def metricCmpAttrs : List String :=
  ["created_at", "id", "links", "updated_at", "system_name", "parent_id"]

def metricMethodCmpAttrs : List String := ["created_at", "id", "links", "parent_id", "updated_at"]

def mappingCmpAttrs : List String :=
  ["created_at", "id", "last", "links", "metric_id", "position", "updated_at"]

def backendCmpAttrs : List String := ["id", "account_id", "created_at", "updated_at", "links"]

def appPlansCmpAttrs : List String := ["created_at", "id", "links", "updated_at"]

def limitsCmpAttr : List String :=
  ["id", "metric_id", "plan_id", "created_at", "updated_at", "links"]

def pricingRulesCmpAttrs : List String := ["id", "metric_id", "created_at", "updated_at", "links"]

def activedocsCmpAttrs : List String := ["id", "service_id", "created_at", "updated_at"]

def backendUsagesCmpAttrs : List String := ["id", "service_id", "backend_id", "links"]

end ThreescaleTests.Toolbox
