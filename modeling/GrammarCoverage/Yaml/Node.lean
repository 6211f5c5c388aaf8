import GrammarCoverage.Text.Content

/-!
# Nodes

The nodes of a document: scalars, sequences and mappings with their tags. A node refers to its
children by their numbers. So an alias is the very node that it stands for, which may occur at many
places, and within itself.
-/

namespace GrammarCoverage.Yaml

/-- The number of a node among those of its document. -/
abbrev NodeId := Nat

/-- A node of a document. -/
inductive Node where
  | scalar (tag : String) (content : Text.Content)
  | sequence (tag : String) (items : List NodeId)
  | mapping (tag : String) (entries : List (NodeId × NodeId))
deriving Inhabited

namespace Node

def tag : Node → String
  | .scalar tag _ | .sequence tag _ | .mapping tag _ => tag

def withTag (tag : String) : Node → Node
  | .scalar _ content => .scalar tag content
  | .sequence _ items => .sequence tag items
  | .mapping _ entries => .mapping tag entries

end Node

/-- A tag of the format itself. -/
def standardTag (name : String) : String := "tag:yaml.org,2002:" ++ name

/-- Nodes by their numbers. -/
structure Graph where
  nodes : Array Node := #[]

namespace Graph

/-- The node of a number. -/
def get (g : Graph) (i : NodeId) : Node := g.nodes[i]?.getD default

def set (g : Graph) (i : NodeId) (n : Node) : Graph := ⟨g.nodes.setIfInBounds i n⟩

def push (g : Graph) (n : Node) : Graph := ⟨g.nodes.push n⟩

/-- How many nodes there are; the next node gets this number. -/
def size (g : Graph) : Nat := g.nodes.size

def tag (g : Graph) (i : NodeId) : String := (g.get i).tag

end Graph

end GrammarCoverage.Yaml
