import AdviceWeaver.Library.Context

/-!
# The logging agent

An agent with one module, which hooks the formatter of structured logs so that every copy of it
picks up correlation identifiers. The copy inside the agent itself stays as it is.
-/

namespace AdviceWeaver.EcsLogging

/-- The class loader of the agent's own plugins. -/
def pluginLoader : String :=
  "co.elastic.apm.agent.bci.classloading.IndyPluginClassLoader"

/-- The module for the formatter. -/
def formatter (c : AgentContext) : Module where
  number := 0
  name := "JulEcsFormatterInstrumentation"
  groups := ["logging", "jul-ecs"]
  types := .name .equals "co.elastic.logging.jul.EcsFormatter"
  methods := .name .equals "getMdcEntries"
  loaders := .and (.not .isBootstrapLoader) (.not (.loaderNamed pluginLoader))
  hook := c.hook "co.elastic.apm.agent.ecs_logging.JulEcsFormatterAdvice"
  alwaysOn := false
  init tracer :=
    let service := Text.showOption Text.quote (tracer.config "service_name")
    ⟨[⟨.debug, "jul-ecs correlation enabled", [("service_name", service)]⟩], .done⟩
  notesInit := false

/-- The catalog of the agent. -/
def catalog : Catalog :=
  ⟨fun c => ⟨none, some [formatter c]⟩⟩

end AdviceWeaver.EcsLogging
