/-!
# About the format

`about` names the format and its version.
-/

namespace Patchbay

/-- What programs are told about the format. -/
def about : List (String × String) :=
  [("title", "GhJSON"), ("version", "0.1.0"), ("format_version", "1.0"), ("license", "Apache-2.0"),
    ("description",
      "Captures node-graph documents into portable JSON and rebuilds live graphs from it.")]

end Patchbay
