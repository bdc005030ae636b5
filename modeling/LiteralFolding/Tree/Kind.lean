-- What the nodes of a syntax tree are and in which role their parents hold them. The kinds
-- and roles that folding looks at have names of their own.

namespace LiteralFolding

/-- The kind of a syntax node. -/
inductive Kind where
  | abstractClassDeclaration
  | ambientDeclaration
  | arrayPattern
  | arrowFunction
  | assignmentPattern
  | binaryExpression
  | catchClause
  | classBody
  | classDeclaration
  | classStaticBlock
  | comment
  | constKeyword
  | enumAssignment
  | enumDeclaration
  | exportStatement
  | forInStatement
  | forStatement
  | functionKeyword
  | functionDeclaration
  | functionExpression
  | functionSignature
  | generatorFunction
  | generatorFunctionDeclaration
  | identifier
  | importClause
  | importRequireClause
  | importSpecifier
  | importStatement
  | internalModule
  | lexicalDeclaration
  | memberExpression
  | methodDefinition
  | externalModule
  | namedImports
  | namespaceImport
  | nestedIdentifier
  | number
  | objectAssignmentPattern
  | objectPattern
  | pair
  | pairPattern
  | parenthesizedExpression
  | plus
  | propertyIdentifier
  | restPattern
  | shorthandPropertyIdentifier
  | shorthandPropertyIdentifierPattern
  | statementBlock
  | string
  | switchBody
  | templateString
  | templateSubstitution
  | undefined
  | varKeyword
  | variableDeclaration
  | variableDeclarator
  /-- Any kind that folding does not look into. -/
  | other (name : String)
  deriving DecidableEq, Repr

namespace Kind

/-- The name of a kind in the grammar. -/
def name : Kind → String
  | .abstractClassDeclaration => "abstract_class_declaration"
  | .ambientDeclaration => "ambient_declaration"
  | .arrayPattern => "array_pattern"
  | .arrowFunction => "arrow_function"
  | .assignmentPattern => "assignment_pattern"
  | .binaryExpression => "binary_expression"
  | .catchClause => "catch_clause"
  | .classBody => "class_body"
  | .classDeclaration => "class_declaration"
  | .classStaticBlock => "class_static_block"
  | .comment => "comment"
  | .constKeyword => "const"
  | .enumAssignment => "enum_assignment"
  | .enumDeclaration => "enum_declaration"
  | .exportStatement => "export_statement"
  | .forInStatement => "for_in_statement"
  | .forStatement => "for_statement"
  | .functionKeyword => "function"
  | .functionDeclaration => "function_declaration"
  | .functionExpression => "function_expression"
  | .functionSignature => "function_signature"
  | .generatorFunction => "generator_function"
  | .generatorFunctionDeclaration => "generator_function_declaration"
  | .identifier => "identifier"
  | .importClause => "import_clause"
  | .importRequireClause => "import_require_clause"
  | .importSpecifier => "import_specifier"
  | .importStatement => "import_statement"
  | .internalModule => "internal_module"
  | .lexicalDeclaration => "lexical_declaration"
  | .memberExpression => "member_expression"
  | .methodDefinition => "method_definition"
  | .externalModule => "module"
  | .namedImports => "named_imports"
  | .namespaceImport => "namespace_import"
  | .nestedIdentifier => "nested_identifier"
  | .number => "number"
  | .objectAssignmentPattern => "object_assignment_pattern"
  | .objectPattern => "object_pattern"
  | .pair => "pair"
  | .pairPattern => "pair_pattern"
  | .parenthesizedExpression => "parenthesized_expression"
  | .plus => "+"
  | .propertyIdentifier => "property_identifier"
  | .restPattern => "rest_pattern"
  | .shorthandPropertyIdentifier => "shorthand_property_identifier"
  | .shorthandPropertyIdentifierPattern => "shorthand_property_identifier_pattern"
  | .statementBlock => "statement_block"
  | .string => "string"
  | .switchBody => "switch_body"
  | .templateString => "template_string"
  | .templateSubstitution => "template_substitution"
  | .undefined => "undefined"
  | .varKeyword => "var"
  | .variableDeclaration => "variable_declaration"
  | .variableDeclarator => "variable_declarator"
  | .other name => name

def known : List Kind :=
  [
    .abstractClassDeclaration, .ambientDeclaration, .arrayPattern, .arrowFunction,
    .assignmentPattern, .binaryExpression, .catchClause, .classBody, .classDeclaration,
    .classStaticBlock, .comment, .constKeyword, .enumAssignment, .enumDeclaration,
    .exportStatement, .forInStatement, .forStatement, .functionKeyword, .functionDeclaration,
    .functionExpression, .functionSignature, .generatorFunction, .generatorFunctionDeclaration,
    .identifier, .importClause, .importRequireClause, .importSpecifier, .importStatement,
    .internalModule, .lexicalDeclaration, .memberExpression, .methodDefinition, .externalModule,
    .namedImports, .namespaceImport, .nestedIdentifier, .number, .objectAssignmentPattern,
    .objectPattern, .pair, .pairPattern, .parenthesizedExpression, .plus, .propertyIdentifier,
    .restPattern, .shorthandPropertyIdentifier, .shorthandPropertyIdentifierPattern,
    .statementBlock, .string, .switchBody, .templateString, .templateSubstitution, .undefined,
    .varKeyword, .variableDeclaration, .variableDeclarator]

def ofName (name : String) : Kind := (known.find? (·.name = name)).getD (.other name)

/-- Kinds that open a function: their parameters live in a scope of the node itself. -/
def isFunctionLike : Kind → Bool
  | .functionDeclaration | .generatorFunctionDeclaration | .functionExpression | .functionKeyword
  | .generatorFunction | .arrowFunction | .methodDefinition | .classStaticBlock => true
  | _ => false

def isNamespace : Kind → Bool
  | .internalModule | .externalModule => true
  | _ => false

end Kind

/-- The role in which a parent holds a child. -/
inductive Field where
  | name
  | value
  | key
  | left
  | operator
  | right
  | pattern
  | parameter
  | parameters
  | localName
  | body
  | keyword
  | object
  | property
  /-- Any role that folding does not ask for. -/
  | other (label : String)
  deriving DecidableEq, Repr

namespace Field

/-- The label of a role in the grammar. -/
def label : Field → String
  | .name => "name"
  | .value => "value"
  | .key => "key"
  | .left => "left"
  | .operator => "operator"
  | .right => "right"
  | .pattern => "pattern"
  | .parameter => "parameter"
  | .parameters => "parameters"
  | .localName => "alias"
  | .body => "body"
  | .keyword => "kind"
  | .object => "object"
  | .property => "property"
  | .other label => label

def known : List Field :=
  [
    .name, .value, .key, .left, .operator, .right, .pattern, .parameter, .parameters,
    .localName, .body, .keyword, .object, .property]

def ofLabel (label : String) : Field := (known.find? (·.label = label)).getD (.other label)

end Field

end LiteralFolding
