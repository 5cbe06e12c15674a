/-!
# What the package says about itself
-/

namespace Bindery.About

/-- The name under which the package is installed and run. -/
def package : String := "bindgen"

def version : String := "0.1.0"

/-- The public names, in alphabetical order with capitals first. -/
def exports : List String :=
  ["BindgenError", "BindingProcessor", "BuildInfo", "ConfigError", "KeyedLazy", "LayoutNames",
    "MalformedIdentifierError", "ProcessingError", "ProcessingStep", "Round", "android_id",
    "capitalize", "join_to_camel_case", "join_to_camel_case_as_var", "keyed_property", "lazy",
    "to_camel_case", "to_camel_case_as_var", "to_java_code"]

end Bindery.About
